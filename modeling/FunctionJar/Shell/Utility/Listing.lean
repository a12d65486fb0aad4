import FunctionJar.Shell.Pattern
import FunctionJar.Shell.Utility.File

namespace FunctionJar.Shell.Utility

open Text (Bytes)

abbrev Shown := String × Node

def escapedName (plain : List Char) (s : String) : String :=
  String.ofList (s.toList.flatMap fun c =>
    match escaped? c with
    | some cs => cs
    | none => if plain.contains c then ['\\', c] else [c])

def Given.shownName (g : Given) (name : String) : String :=
  if g.has 'Q' then "\"" ++ escapedName ['"', '\\'] name ++ "\""
  else if g.has 'b' then escapedName [' ', '\\'] name
  else name

def Given.kindMark (g : Given) (n : Node) : String :=
  match n with
  | .folder _ => if g.hasAny "pF" then "/" else ""
  | .link _ => if g.has 'F' then "@" else ""
  | .file _ runs => if g.has 'F' && runs then "*" else ""

def Given.lists (g : Given) (name : String) : Bool :=
  let fits (pattern : String) : Bool := matchesPattern (marks false pattern) name.toList
  let isAll := g.hasAny "aAf"
  !(g.values 'I').any fits && !(g.has 'B' && name.endsWith "~") &&
    (isAll || !name.startsWith "." && !(g.values 'J').any fits)

def sizeOf : Node → Nat
  | .file content _ => content.length
  | .folder _ => 4096
  | .link target => target.utf8ByteSize

def endingOf (name : String) : String :=
  match (Text.splitAt '.' name.toList).reverse with
  | _ :: [] | [] => ""
  | last :: _ => String.ofList last

def Given.ordered (g : Given) (items : List Shown) : List Shown :=
  let byName := items.mergeSort fun a b => a.1 ≤ b.1
  let order := match g.value? 'Y' with
    | some "none" => 'U'
    | some "size" => 'S'
    | some "extension" => 'X'
    | some _ => 't'
    | none => (g.last? "SUfXtv").getD 't'
  let sorted := match order with
    | 'U' | 'f' => items
    | 'S' => byName.mergeSort fun a b => sizeOf b.2 ≤ sizeOf a.2
    | 'X' => byName.mergeSort fun a b => endingOf a.1 ≤ endingOf b.1
    | _ => byName
  if g.has 'r' then sorted.reverse else sorted

/-- A line about something with its size, as if all of it were made at the same moment. -/
def longLine (g : Given) (item : Shown) : String :=
  let kind := match item.2 with
    | .folder _ => "drwxr-xr-x 2"
    | .link _ => "lrwxrwxrwx 1"
    | .file _ true => "-rwxr-xr-x 1"
    | .file _ false => "-rw-r--r-- 1"
  let goal := match item.2 with
    | .link target => " -> " ++ target
    | _ => ""
  s!"{kind} root root {sizeOf item.2} Jan  1 00:00 {g.shownName item.1}{goal}"

def commaLines (width : Nat) : List String → List String
  | [] => []
  | name :: rest => go name rest
where
  go (line : String) : List String → List String
    | [] => [line]
    | name :: rest =>
      if line.length + name.length + 2 < width then go (line ++ ", " ++ name) rest
      else (line ++ ",") :: go name rest

def Given.isLong (g : Given) : Bool := g.hasAny "lgno" && !g.has 'm'

def Given.lines (g : Given) (items : List Shown) : List String :=
  let text (item : Shown) : String := g.shownName item.1 ++ g.kindMark item.2
  if g.isLong then items.map (longLine g)
  else if g.has 'm' ∨ g.value? 'O' = some "commas" then
    commaLines ((g.value? 'w').elim 80 natOf) (items.map text)
  else items.map text

def Given.content (g : Given) (items : List Shown) : List Shown :=
  let ways := if g.hasAny "af" then [(".", Node.empty), ("..", Node.empty)] else []
  let ways := if g.has 'r' && !g.hasAny "Uf" then ways.reverse else ways
  let kept := g.ordered (items.filter fun i => g.lists i.1)
  if g.has 'r' then kept ++ ways else ways ++ kept

/-- A folder and those below it, as deep as `depth`, each with what is shown of it. -/
def sections (g : Given) : Nat → String → Node → List (String × List Shown)
  | 0, _, _ => []
  | depth + 1, path, n =>
    let content := g.content n.items
    let inner := content.filter fun i => i.2.isFolder && i.1 != "." && i.1 != ".."
    (path, content) :: if g.has 'R' then
      inner.flatMap fun i => sections g depth (Path.join path i.1) i.2 else []

def meant (g : Given) (p : Process) (operand : String) : Except OsError Node :=
  let path := p.path operand
  let own := p.disk.entry path
  if g.has 'L' then p.disk.node path
  else if (g.has 'd' || g.has 'F' || g.isLong) && !g.has 'H' then own
  else match p.disk.node path with
    | .ok n => if n.isFolder || g.has 'H' then .ok n else own
    | .error _ => own

def lsUsage : Usage :=
  { Usage.plain "ls" "aAbBcCdfFgGhHiklLmnNopqQrRsStuUvxXZ1" "ITwYOJ"
      [("all", 'a'), ("almost-all", 'A'), ("escape", 'b'), ("ignore-backups", 'B'),
        ("directory", 'd'), ("classify", 'F'), ("recursive", 'R'), ("reverse", 'r'),
        ("quote-name", 'Q'), ("literal", 'N'), ("color", 'K'), ("sort", 'Y'), ("format", 'O'),
        ("hide", 'J'), ("ignore", 'I'), ("width", 'w'), ("size", 's'), ("inode", 'i'),
        ("dereference", 'L'), ("human-readable", 'h'), ("no-group", 'G'),
        ("numeric-uid-gid", 'n'), ("zero", 'Z')] with
    optional := "K", status := 2 }

def ls (args : List String) (p : Process) : Process :=
  lsUsage.run args p fun g =>
    match (g.value? 'w').filter fun w => (Text.digits? w.toList).isNone with
    | some w => p.fail 2 s!"ls: invalid line width: {quotedText w}"
    | none =>
      let isHeaded := 1 < g.operands.length || g.has 'R'
      let found := (if g.operands = [] then ["."] else g.operands).map fun o => (o, meant g p o)
      let p := found.foldl (fun p (o, n) => match n with
        | .ok _ => p
        | .error e => p.fail 2 s!"ls: cannot access {quotedText o}: {e.text}") (p.withStatus 0)
      let opens (n : Node) : Bool := n.isFolder && !g.has 'd'
      let nodes := g.ordered (found.filterMap fun (o, n) => n.toOption.map (o, ·))
      let files := nodes.filter fun f => !opens f.2
      let p := printLines p (g.lines files)
      let parts := (nodes.filter fun f => opens f.2).flatMap fun (o, n) =>
        sections g Disk.longestPath o n
      let step (state : Process × Bool) (part : String × List Shown) : Process × Bool :=
        let header := if isHeaded then (if state.2 then [""] else []) ++ [part.1 ++ ":"] else []
        let total := if g.isLong then ["total 0"] else []
        (printLines state.1 (header ++ total ++ g.lines part.2), true)
      (parts.foldl step (p, !files.isEmpty)).1

end FunctionJar.Shell.Utility
