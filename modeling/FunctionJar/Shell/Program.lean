import FunctionJar.Shell.Utility.Calculate
import FunctionJar.Shell.Utility.Copy
import FunctionJar.Shell.Utility.Echo
import FunctionJar.Shell.Utility.Editor
import FunctionJar.Shell.Utility.Listing
import FunctionJar.Shell.Utility.Search
import FunctionJar.Shell.Utility.Slice
import FunctionJar.Shell.Utility.Sort
import FunctionJar.Shell.Utility.Stream
import FunctionJar.Shell.Utility.Test

namespace FunctionJar.Shell

open Text (Bytes)

abbrev Tool := List String → Process → Process

def showFolder : Tool := fun args p =>
  (Utility.Usage.plain "pwd" "LP" "" [("logical", 'L'), ("physical", 'P')]).run args p fun g =>
    let p := if g.operands = [] then p else p.complain "pwd: ignoring non-option arguments"
    (p.printLine p.folder).withStatus 0

/-- Files are written at once, so there is nothing to wait for but files that are not there. -/
def sync : Tool := fun args p =>
  (Utility.Usage.plain "sync" "df" "" [("data", 'd'), ("file-system", 'f')]).run args p fun g =>
    Utility.each p g.operands fun p operand =>
      match p.disk.node (p.path operand) with
      | .ok _ => p
      | .error e => p.fail 1 s!"sync: error opening {Utility.quotedText operand}: {e.text}"

def ownTools : List (String × Tool) :=
  [("true", fun _ p => p.withStatus 0),
    ("false", fun _ p => p.withStatus 1),
    ("echo", Utility.echo),
    ("printf", Utility.printf),
    ("test", Utility.test "test"),
    ("[", Utility.bracketTest)]

open Utility in
def tools : List (String × Tool) :=
  [("true", fun _ p => p.withStatus 0),
    ("false", fun _ p => p.withStatus 1),
    ("echo", plainEcho),
    ("printf", plainPrintf),
    ("cat", cat),
    ("mkdir", mkdir),
    ("rmdir", rmdir),
    ("rm", rm),
    ("unlink", unlink),
    ("touch", touch),
    ("mkfifo", mkfifo),
    ("ls", ls),
    ("find", find),
    ("head", head),
    ("tail", tail),
    ("tac", tac),
    ("rev", rev),
    ("cut", cut),
    ("tr", tr),
    ("sort", sort),
    ("uniq", uniq),
    ("wc", wc),
    ("nl", nl),
    ("paste", paste),
    ("fold", fold),
    ("cmp", cmp),
    ("grep", grep),
    ("sed", sed),
    ("tee", tee),
    ("yes", yes),
    ("basename", basename),
    ("dirname", dirname),
    ("cp", cp),
    ("mv", mv),
    ("ln", ln),
    ("readlink", readlink),
    ("realpath", realpath),
    ("chmod", chmod),
    ("sleep", sleep),
    ("seq", seq),
    ("expr", expr),
    ("test", plainTest "test"),
    ("[", plainBracketTest),
    ("sync", sync),
    ("pwd", showFolder)]

def runners : List String := ["sh", "dash", "env"]

def toolMark : Bytes := bytesOf "\x7fELF"

def programFile (name : String) : Node := .file (toolMark ++ bytesOf name) true

def processes (guest : Option Guest) : Node :=
  .folder (guest.toList.map fun g =>
    (toString Process.firstParent, .folder [("exe", programFile g.name)]))

def system (guest : Option Guest) : Node :=
  let file (name : String) : String × Node := (name, programFile name)
  let empty (name : String) : String × Node := (name, .empty)
  let programs : Node := .folder ((tools.map (·.1) ++ runners).map file)
  let shared : Node := .folder (("bin", programs) :: ["sbin", "lib", "share", "local"].map empty)
  let devices : Node := .folder (["null", "zero", "tty"].map fun name => (name, .file [] false))
  .folder ([("usr", shared), ("bin", .link "usr/bin"), ("sbin", .link "usr/sbin"),
      ("lib", .link "usr/lib"), ("dev", devices), ("proc", processes guest)] ++
    ["etc", "home", "opt", "root", "run", "srv", "sys", "tmp", "var"].map empty)

inductive Image
  | tool (name : String)
  | script (interpreter : String) (argument : Option String)
  | text
  deriving DecidableEq, Repr

def longestFirstLine : Nat := 255

def Image.ofBytes (bytes : Bytes) : Image :=
  if toolMark.isPrefixOf bytes then
    .tool (String.ofList (textOf (bytes.drop toolMark.length)))
  else if bytes.take 2 = [35, 33] then
    let isGap (c : Char) : Bool := c == ' ' || c == '\t'
    let line := textOf ((bytes.take longestFirstLine).drop 2 |>.takeWhile (· != 10))
    let line := ((line.dropWhile isGap).reverse.dropWhile isGap).reverse
    let interpreter := line.takeWhile (!isGap ·)
    let argument := (line.drop interpreter.length).dropWhile isGap
    if interpreter = [] then .text
    else .script (String.ofList interpreter)
      (if argument = [] then none else some (String.ofList argument))
  else .text

/-- What starting a file comes to: a program, or none for a text that names none, and arguments
that stand in front of those given. -/
structure Launch where
  tool : Option String
  front : List String
  deriving DecidableEq, Repr

def mostScripts : Nat := 5

def launch? (p : Process) : Nat → String → Except OsError Launch
  | 0, _ => .error .tooManyLinks
  | fuel + 1, path => do
    match ← p.disk.node (p.path path) with
    | .file content true =>
      match Image.ofBytes content with
      | .tool name => return ⟨some name, []⟩
      | .text => return ⟨none, []⟩
      | .script interpreter argument =>
        let l ← launch? p fuel interpreter
        return { l with front := l.front ++ argument.toList ++ [path] }
    | _ => throw .denied

def candidates (name : String) (folders : String) : List String :=
  if name.toList.contains '/' then [name]
  else (Text.splitAt ':' folders.toList).map fun folder =>
    Path.join (if folder = [] then "." else String.ofList folder) name

/-- The first path of which something holds, or the last reason against one that is there. -/
def firstOf {α : Type} (attempt : String → Except OsError α) (e : OsError) :
    List String → Except OsError α
  | [] => .error e
  | path :: rest =>
    match attempt path with
    | .ok a => .ok a
    | .error .notFound | .error .notDirectory => firstOf attempt e rest
    | .error e => firstOf attempt e rest

def launchFrom (p : Process) (paths : List String) : Except OsError (String × Launch) :=
  let attempt (path : String) := (launch? p mostScripts path).map (path, ·)
  match paths with
  | [path] => attempt path
  | paths => firstOf attempt .notFound paths

def fileAt (p : Process) (path : String) : Except OsError String := do
  match ← p.disk.node (p.path path) with
  | .file .. => return path
  | _ => throw .denied

end FunctionJar.Shell
