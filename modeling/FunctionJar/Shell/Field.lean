import FunctionJar.Shell.Pattern

namespace FunctionJar.Shell

/-- What a part of a word becomes: characters that stay together, a value that may be split into
fields, or one field for each argument, which may be split further unless they are quoted. -/
inductive Chunk
  | solid (ms : List Mark)
  | loose (s : String)
  | fields (args : List String) (isQuoted : Bool)

def isGap (c : Char) : Bool := c == ' ' || c == '\t' || c == '\n'

/-- Fields so far, the last one first, and the one under way. `afterGap` says that blanks have
closed a field, so that a separator right behind them closes no other one. -/
structure Fields where
  done : List (List Mark)
  current : Option (List Mark)
  afterGap : Bool

namespace Fields

def append (f : Fields) (ms : List Mark) : Fields :=
  ⟨f.done, some (f.current.getD [] ++ ms), false⟩

def close (f : Fields) (afterGap : Bool) : Fields :=
  match f.current with
  | some ms => ⟨ms :: f.done, none, afterGap⟩
  | none => { f with afterGap := f.afterGap && afterGap }

def addLoose (separators : List Char) (f : Fields) (s : String) : Fields :=
  s.toList.foldl (fun f c =>
    if !separators.contains c then f.append [⟨c, false⟩]
    else if isGap c then f.close true
    else if f.afterGap then { f with afterGap := false }
    else (f.append []).close false) f

def addAll (separators : List Char) (isQuoted : Bool) (f : Fields) : List String → Fields
  | [] => f
  | [s] => one f s
  | s :: rest => addAll separators isQuoted ((one f s).close false) rest
where
  one (f : Fields) (s : String) : Fields :=
    if isQuoted then f.append (marks true s) else f.addLoose separators s

def add (separators : List Char) (f : Fields) : Chunk → Fields
  | .solid ms => f.append ms
  | .loose s => f.addLoose separators s
  | .fields args isQuoted => f.addAll separators isQuoted args

def ofChunks (separators : List Char) (chunks : List Chunk) : List (List Mark) :=
  ((chunks.foldl (add separators) ⟨[], none, false⟩).close false).done.reverse

end Fields

def Chunk.text : Chunk → List Mark
  | solid ms => ms
  | loose s => marks false s
  | fields args isQuoted => marks isQuoted (Text.join " " args)

def share (separators : List Char) : List String → List Mark → List (String × String)
  | [], _ => []
  | names, s => go names (s.dropWhile isEdge)
where
  isSeparator (m : Mark) : Bool := separators.contains m.char && !m.isQuoted
  isEdge (m : Mark) : Bool := isSeparator m && isGap m.char
  trimmed (s : List Mark) : List Mark := (s.reverse.dropWhile isEdge).reverse
  unended (s : List Mark) : List Mark :=
    match s.reverse with
    | [] => []
    | m :: before =>
      if isSeparator m && !(before.any isSeparator) then trimmed before.reverse else s
  go : List String → List Mark → List (String × String)
    | [], _ => []
    | [name], s => [(name, unmark (unended (trimmed s)))]
    | name :: rest, s =>
      let word := s.takeWhile (!isSeparator ·)
      let after := (s.drop word.length).dropWhile isEdge
      let after := match after with
        | m :: ms => if isSeparator m then ms.dropWhile isEdge else m :: ms
        | [] => []
      (name, unmark word) :: go rest after

end FunctionJar.Shell
