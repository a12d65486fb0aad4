import FunctionJar.Shell.Regex
import FunctionJar.Shell.Utility.Find

namespace FunctionJar.Shell.Utility

open Text (Bytes)

def lower (cs : List Char) : List Char := cs.map Char.toLower

inductive Wish
  | word (w : List Char)
  | expression (re : Regex)

/-- How long the occurrences are that start at the place where `rest` is what is left of a line. -/
def Wish.lengths (w : Wish) (line rest : List Char) : List Nat :=
  match w with
  | word w => if w.isPrefixOf rest then [w.length] else []
  | expression re => (re.ways line ⟨rest, []⟩).map fun m => rest.length - m.rest.length

structure Search where
  given : Given
  wishes : List Wish

def Search.allows (s : Search) (line : List Char) (start length : Nat) : Bool :=
  if s.given.has 'x' then start = 0 && length = line.length
  else if s.given.has 'w' then
    !(line.take start).getLast?.any isWordChar && !(line.drop (start + length)).head?.any isWordChar
  else true

def Search.at? (s : Search) (line : List Char) (start : Nat) : Option Nat :=
  let found := s.wishes.flatMap fun w => w.lengths line (line.drop start)
  (found.filter (s.allows line start)).max?

/-- The occurrences in a line from left to right, as pairs of start and length. -/
def Search.occurrences (s : Search) (line : List Char) : Nat → Nat → List (Nat × Nat)
  | 0, _ => []
  | fuel + 1, start =>
    if line.length < start then []
    else
      match s.at? line start with
      | none => s.occurrences line fuel (start + 1)
      | some n => (start, n) :: s.occurrences line fuel (start + max 1 n)

def Search.inLine (s : Search) (line : List Char) : List (Nat × Nat) :=
  let text := if s.given.has 'i' then lower line else line
  s.occurrences text (text.length + 1) 0

structure Numbered where
  line : List Char
  number : Nat
  start : Nat

def numberedLines (number start : Nat) : List Bytes → List Numbered
  | [] => []
  | line :: rest =>
    ⟨byteChars (withoutFeed line), number, start⟩ ::
      numberedLines (number + 1) (start + line.length) rest

def Search.lead (s : Search) (label : String) (sign : Char) (number start : Nat) : Bytes :=
  let part (text : String) : Bytes := bytesOf (text.push sign)
  let name := if label = "" then []
    else if s.given.has 'Z' then bytesOf label ++ [0]
    else part label
  name ++ (if s.given.has 'n' then part (toString number) else []) ++
    (if s.given.has 'b' then part (toString start) else [])

def Search.shown (s : Search) (label : String) (l : Numbered) : Bytes :=
  if s.given.has 'o' then
    if s.given.has 'v' then []
    else ((s.inLine l.line).filter (·.2 ≠ 0)).flatMap fun (start, n) =>
      s.lead label ':' l.number (l.start + start) ++
        ofByteChars ((l.line.drop start).take n) ++ [10]
  else s.lead label ':' l.number l.start ++ ofByteChars l.line ++ [10]

def Search.count? (s : Search) (letters : String) : Option Nat :=
  (s.given.last? letters).bind fun c =>
    (s.given.value? c).bind fun text => Text.digits? text.toList

def Search.context (s : Search) : Nat × Nat :=
  let digits := s.given.letters.filter Char.isDigit
  let around := if digits = [] then (s.count? "C").getD 0 else Text.natOfDigits digits
  ((s.count? "B").getD around, (s.count? "A").getD around)

/-- Hits with the lines around them. `last` is the number of the last line that was shown. -/
def Search.withContext (s : Search) (label : String) (hits : List Nat) (last : Nat) :
    List Numbered → Bytes
  | [] => []
  | l :: rest =>
    let (before, after) := s.context
    let isHit := hits.contains l.number
    let isNear := hits.any fun n => n ≤ l.number + before && l.number ≤ n + after
    if !isNear then s.withContext label hits last rest
    else
      let gap := if last ≠ 0 ∧ last + 1 < l.number then bytesOf "--\n" else []
      let here :=
        if isHit then s.shown label l
        else if s.given.has 'o' then []
        else s.lead label '-' l.number l.start ++ ofByteChars l.line ++ [10]
      gap ++ here ++ s.withContext label hits l.number rest

def Search.hits (s : Search) (lines : List Numbered) : List Numbered :=
  let hits := lines.filter fun l => (s.inLine l.line).isEmpty == s.given.has 'v'
  match s.count? "m" with
  | some n => hits.take n
  | none => hits

/-- The status once a line was found, where a file that could not be read keeps its own. -/
def foundStatus (p : Process) : Process := if p.status = 2 then p else p.withStatus 0

def Search.report (s : Search) (operand label : String) (bytes : Bytes) (p : Process) : Process :=
  let lines := numberedLines 1 0 (byteLines bytes)
  let hits := s.hits lines
  let p := if hits.isEmpty then p else foundStatus p
  let ending : Bytes := if s.given.has 'Z' then [0] else [10]
  let named (p : Process) := p.print (bytesOf operand ++ ending)
  if s.given.has 'q' then p
  else if s.given.has 'l' then (if hits.isEmpty then p else named p)
  else if s.given.has 'L' then (if hits.isEmpty then named p else p)
  else if s.given.has 'c' then
    let lead := if label = "" then []
      else if s.given.has 'Z' then bytesOf label ++ [0]
      else bytesOf (label ++ ":")
    p.print (lead ++ bytesOf s!"{hits.length}\n")
  else if hits ≠ [] ∧ bytes.contains 0 ∧ !s.given.has 'a' then
    p.printLine s!"grep: {operand}: binary file matches"
  else
    let behind := match s.count? "m", hits.getLast? with
      | some n, some last =>
        if hits.length = n then lines.take (last.number + s.context.2) else lines
      | _, _ => lines
    p.print (s.withContext label (hits.map (·.number)) 0 behind)

structure Source where
  path : String
  label : String

def Search.wants (s : Search) (path : String) : Bool :=
  let fitsOne (patterns : List String) : Bool :=
    patterns.any fun pattern => matchesPattern (marks false pattern) (baseName path).toList
  let wanted := s.given.values '+'
  (wanted = [] || fitsOne wanted) && !fitsOne (s.given.values '!')

def Search.isDeep (s : Search) : Bool :=
  s.given.hasAny "rR" || s.given.value? 'd' = some "recurse"

def Search.sources (s : Search) (p : Process) (operands : List String) : List Source :=
  let named (path : String) : Source :=
    ⟨path, if path = "-" then (s.given.value? '=').getD "(standard input)" else path⟩
  if s.isDeep then
    let isBare := operands = []
    (if isBare then ["."] else operands).flatMap fun o =>
      match if o = "-" then .error .notFound else p.disk.node (p.path o) with
      | .ok n =>
        let files := (foundBelow o 0 n).filter fun f =>
          f.node.isFile && (f.depth = 0 || s.wants f.path)
        files.map fun f => ⟨f.path, if isBare then (f.path.drop 2).toString else f.path⟩
      | .error _ => [named o]
  else (operandsOr operands).map named

def grepLong : List (String × Char) :=
  [("extended-regexp", 'E'), ("fixed-strings", 'F'), ("basic-regexp", 'G'),
    ("perl-regexp", 'P'), ("regexp", 'e'), ("file", 'f'), ("ignore-case", 'i'),
    ("word-regexp", 'w'), ("line-regexp", 'x'), ("null-data", 'z'), ("no-messages", 's'),
    ("invert-match", 'v'), ("max-count", 'm'), ("byte-offset", 'b'), ("line-number", 'n'),
    ("line-buffered", 'u'), ("with-filename", 'H'), ("no-filename", 'h'), ("label", '='),
    ("only-matching", 'o'), ("quiet", 'q'), ("silent", 'q'), ("text", 'a'),
    ("directories", 'd'), ("devices", 'D'), ("recursive", 'r'), ("dereference-recursive", 'R'),
    ("include", '+'), ("exclude", '!'), ("files-without-match", 'L'),
    ("files-with-matches", 'l'), ("count", 'c'), ("initial-tab", 'T'), ("null", 'Z'),
    ("before-context", 'B'), ("after-context", 'A'), ("context", 'C'), ("color", '*'),
    ("colour", '*'), ("binary", 'U')]

def grepUsage : Usage :=
  ⟨"grep", "EFGPiwxzsvbnuHhoqaIrRLlcTZUy0123456789", "efmdDABC=+!", "*", grepLong, 2, false⟩

def grepHint : String :=
  "Usage: grep [OPTION]... PATTERNS [FILE]...\nTry 'grep --help' for more information."

def refuseGrep (p : Process) (text : String) : Process := p.fail 2 (text ++ grepHint)

def wrongValue? (g : Given) : Option (Nat × String) :=
  let isNumber (text : String) : Bool := match text.toList with
    | '-' :: digits | digits => (Text.digits? digits).isSome
  g.options.findSome? fun (c, value) =>
    match c with
    | 'm' => if isNumber value then none else some (2, "grep: invalid max count")
    | 'A' | 'B' | 'C' =>
      if (Text.digits? value.toList).isSome then none
      else some (2, s!"grep: {value}: invalid context length argument")
    | 'd' =>
      if value ∈ ["read", "recurse", "skip"] then none
      else
        let known := "Valid arguments are:\n  - 'read'\n  - 'recurse'\n  - 'skip'\n"
        some (1, s!"grep: invalid argument '{value}' for '--directories'\n" ++ known ++ grepHint)
    | 'D' =>
      if value ∈ ["read", "skip"] then none else some (2, "grep: unknown devices method")
    | _ => none

def givenPatterns (g : Given) (p : Process) : Except (String × OsError) (List (List Char)) := do
  let texts ← (g.options.filter fun o => o.1 == 'e' || o.1 == 'f').mapM fun (c, value) =>
    if c = 'e' then return Text.splitAt '\n' (bytewise value)
    else match contentOf p value with
      | .ok (_, bytes) => return textLines bytes
      | .error e => throw (value, e)
  return texts.flatten

def wishesOf (g : Given) (patterns : List (List Char)) : Except Regex.Fault (List Wish) :=
  let ignores := g.hasAny "iy"
  patterns.mapM fun text =>
    if g.has 'F' then return .word (if ignores then lower text else text)
    else do
      let re ← Regex.parse (g.hasAny "EP") (String.ofList text)
      return .expression (if ignores then re.ignoringCase else re)

def Search.run (s : Search) (operands : List String) (p : Process) : Process :=
  let sources := s.sources p operands
  let isLabelled := match s.given.last? "hH" with
    | some c => c == 'H'
    | none => 1 < operands.length || s.isDeep
  let step (p : Process) (source : Source) : Process :=
    let isDone := s.given.has 'q' ∧ p.status = 0
    if isDone then p
    else
      match contentOf p source.path with
      | .ok (p, bytes) =>
        let p := if s.given.has 'q' ∧ p.status = 2 ∧
            s.hits (numberedLines 1 0 (byteLines bytes)) ≠ [] then p.withStatus 0 else p
        s.report source.label (if isLabelled then source.label else "") bytes p
      | .error e =>
        if e = .isDirectory ∧ s.given.value? 'd' = some "skip" then p
        else
          let p := if s.given.has 's' then p
            else p.complain s!"grep: {source.label}: {e.text}"
          p.withStatus 2
  sources.foldl step (p.withStatus 1)

def grep (args : List String) (p : Process) : Process :=
  match grepUsage.parse args with
  | .error text => refuseGrep p s!"grep: {text}\n"
  | .ok g =>
    match wrongValue? g, givenPatterns g p with
    | some (status, text), _ => p.fail status text
    | none, .error (path, e) => p.fail 2 s!"grep: {path}: {e.text}"
    | none, .ok patterns =>
      let (patterns, operands) := match g.hasAny "ef", g.operands with
        | false, pattern :: rest => (some (Text.splitAt '\n' (bytewise pattern)), rest)
        | false, [] => (none, [])
        | true, operands => (some patterns, operands)
      match patterns with
      | none => refuseGrep p ""
      | some patterns =>
        if 1 < (g.letters.filter "EFGP".toList.contains).eraseDups.length then
          p.fail 2 "grep: conflicting matchers specified"
        else
          match wishesOf g patterns with
          | .error fault => p.fail 2 s!"grep: {fault.text}"
          | .ok wishes => Search.run ⟨g, wishes⟩ operands p

end FunctionJar.Shell.Utility
