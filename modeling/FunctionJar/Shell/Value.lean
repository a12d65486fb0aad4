import FunctionJar.Shell.Arith
import FunctionJar.Shell.Field
import FunctionJar.Shell.Process
import FunctionJar.Shell.Utility.Operand

namespace FunctionJar.Shell

def isWild (ms : List Mark) : Bool := ms.any fun m => m.is '*' || m.is '?' || m.is '['

def splitMarks : List Mark → List (List Mark)
  | [] => [[]]
  | m :: rest =>
    match splitMarks rest with
    | [] => [[m]]
    | piece :: pieces => if m.char = '/' then [] :: piece :: pieces else (m :: piece) :: pieces

def namesFitting (p : Process) (folder : String) (pattern : List Mark) : List String :=
  let names := (p.disk.list (p.path (if folder = "" then "." else folder))).toOption.getD []
  let isHidden := pattern.head?.any fun m => m.char == '.'
  (if isHidden then "." :: ".." :: names else names).filter fun n =>
    matchesPattern pattern n.toList && (!n.startsWith "." || isHidden)

/-- The paths that exist and fit a pattern, one part of it after another. `base` is what the parts
before have come to. -/
def pathsFitting (p : Process) (base : String) : List (List Mark) → List String
  | [] => []
  | [part] =>
    if isWild part then (namesFitting p base part).map (base ++ ·)
    else if part = [] then (if p.disk.isFolder (p.path base) then [base] else [])
    else
      let path := base ++ unmark part
      if (p.disk.entry (p.path path)).isOk then [path] else []
  | part :: rest =>
    let names := if isWild part then namesFitting p base part else [unmark part]
    names.flatMap fun name => pathsFitting p (base ++ name ++ "/") rest

def globbed (p : Process) (field : List Mark) : List String :=
  if isWild field ∧ !p.has 'f' then
    match pathsFitting p "" (splitMarks field) with
    | [] => [unmark field]
    | paths => Utility.sorted paths
  else [unmark field]

def shellModes : List (Char × String) :=
  [('e', "errexit"), ('f', "noglob"), ('I', "ignoreeof"), ('i', "interactive"), ('m', "monitor"),
    ('n', "noexec"), ('s', "stdin"), ('x', "xtrace"), ('v', "verbose"), ('V', "vi"), ('E', "emacs"),
    ('C', "noclobber"), ('a', "allexport"), ('b', "notify"), ('u', "nounset"), ('p', "privileged"),
    ('\x01', "nolog"), ('\x02', "debug")]

namespace Process

def value? (p : Process) (name : String) : Option String :=
  match name with
  | "#" => some (toString p.args.length)
  | "?" => some (toString p.status)
  | "$" => some (toString p.id)
  | "!" => p.jobs.head?.map (·.1)
  | "-" => some (String.ofList ((shellModes.map (·.1)).filter p.has).reverse)
  | "0" => some p.name
  | "@" | "*" => if p.args = [] then none else some (Text.join " " p.args)
  | name =>
    match Text.digits? name.toList with
    | some n => p.args[n - 1]?
    | none => p.get? name

def separators (p : Process) : List Char := ((p.get? "IFS").getD " \t\n").toList

def joined (p : Process) : String :=
  Text.join (String.ofList (p.separators.take 1)) p.args

def chunk (p : Process) (name : String) (isQuoted isSplit : Bool) : Chunk :=
  if (name = "@" ∨ name = "*") ∧ isSplit ∧ (name = "@" ∨ !isQuoted) then .fields p.args isQuoted
  else
    let v := if name = "@" ∨ name = "*" then p.joined else (p.value? name).getD ""
    if isQuoted then .solid (marks true v) else .loose v

def chunkOf (s : String) (isQuoted : Bool) : Chunk :=
  if isQuoted then .solid (marks true s) else .loose s

def home? (p : Process) (user : List Char) : Option String :=
  if user = [] then p.get? "HOME"
  else if user = "root".toList then some "/root"
  else none

def untilded (p : Process) (isLast : Bool) (s : List Char) : List Part :=
  match s with
  | '~' :: rest =>
    let user := rest.takeWhile (· != '/')
    match if user.length < rest.length ∨ isLast then p.home? user else none with
    | some home => [.text home true, .text (String.ofList (rest.drop user.length)) false]
    | none => [.text (String.ofList s) false]
  | s => [.text (String.ofList s) false]

def homed (p : Process) : List Part → List Part
  | .text s false :: rest =>
    if s.startsWith "~" then p.untilded rest.isEmpty s.toList ++ rest else .text s false :: rest
  | word => word

/-- A value to be given to a name with its tildes replaced: the one in front, and those behind
colons. -/
def homedAll (p : Process) (isFirst : Bool) : List Part → List Part
  | [] => []
  | .text s false :: rest =>
    let pieces := Text.splitAt ':' s.toList
    let last := pieces.length - 1
    let parts := pieces.zipIdx.map fun (piece, n) =>
      let isLast := n != last || rest.isEmpty
      if n = 0 ∧ !isFirst then [Part.text (String.ofList piece) false]
      else p.untilded isLast piece
    [Part.text ":" false].intercalate parts ++ homedAll p false rest
  | part :: rest => part :: homedAll p false rest

def demand (p : Process) (name : String) : Process :=
  if p.has 'u' ∧ (p.value? name).isNone ∧ name ≠ "@" ∧ name ≠ "*" then
    (p.object 2 s!"{name}: parameter not set").exit 2
  else p

end Process

end FunctionJar.Shell
