import FunctionJar.Disk.Files
import FunctionJar.Shell.Bytes
import FunctionJar.Shell.Script
import FunctionJar.Toolchain

namespace FunctionJar.Shell

open Text (Bytes)
open Toolchain (Ending)

inductive Sink
  | out
  | err
  | held (place : Nat)
  | file (path : String)
  | nowhere
  | closed
  deriving DecidableEq, Repr

inductive Jump
  | leave (loops : Nat)
  | again (loops : Nat)
  | back
  deriving DecidableEq, Repr

/-- What a shell is to do by itself: when it ends, and at signals instead of what they would do.
`pending` is what a signal has given to be run. -/
structure Traps where
  atExit : Option String
  atSignals : List (Nat × String)
  pending : Option String

def Traps.none : Traps := ⟨.none, [], .none⟩

/-- The streams of a process: what is left to read, and where it writes to. Those with other
numbers than the first three are in lists. -/
structure Streams where
  input : Bytes
  out : Sink
  err : Sink
  inputs : List (Nat × Bytes)
  sinks : List (Nat × Sink)

structure Visit where
  args : List String
  folder : String
  vars : List (String × Bytes)
  disk : Disk

structure Answer where
  status : Nat
  out : Bytes
  err : Bytes
  disk : Disk

/-- A program that is not of the system, but is there because it has started the first process. -/
structure Guest where
  name : String
  answer : Visit → Answer

structure Process where
  trace : Trace
  guest : Option Guest
  folder : String
  name : String
  args : List String
  vars : List (String × String)
  exported : List String
  fixed : List String
  outer : Option (List (String × Option String))
  functions : List (String × Command)
  modes : List Char
  isTest : Bool
  loops : Nat
  traps : Traps
  id : Nat
  parents : List Nat
  isInner : Bool
  struck : List (Nat × Nat)
  mask : Nat
  jobs : List (String × Nat)
  optionAt : Nat
  cause : String
  isMild : Bool
  line : Nat
  status : Nat
  answered : Nat
  streams : Streams
  out : List Bytes
  err : List Bytes
  held : List (List Bytes)
  ended : Option Ending
  jump : Option Jump

namespace Process

def programFolders : String := "/usr/local/sbin:/usr/local/bin:/usr/sbin:/usr/bin:/sbin:/bin"

def firstParent : Nat := 4241

def usualVars : List (String × String) := [("PATH", programFolders), ("HOME", "/root")]

def start (trace : Trace) (guest : Option Guest) (folder name : String) (args : List String)
    (vars : List (String × String)) : Process where
  trace := trace
  guest := guest
  folder := folder
  name := name
  args := args
  vars := vars
  exported := vars.map (·.1)
  fixed := []
  outer := none
  functions := []
  modes := []
  isTest := false
  loops := 0
  traps := .none
  id := firstParent + 1
  parents := [firstParent]
  isInner := false
  struck := []
  mask := 0o22
  jobs := []
  optionAt := 0
  cause := ""
  isMild := false
  line := 1
  status := 0
  answered := 0
  streams := ⟨[], .out, .err, [], []⟩
  out := []
  err := []
  held := []
  ended := none
  jump := none

def output (p : Process) : Bytes := p.out.reverse.flatten

def errors (p : Process) : Bytes := p.err.reverse.flatten

def isStopped (p : Process) : Bool := p.ended.isSome || p.jump.isSome

def input (p : Process) : Bytes := p.streams.input

def withInput (p : Process) (bytes : Bytes) : Process := { p with streams.input := bytes }

def has (p : Process) (mode : Char) : Bool := p.modes.contains mode

/-- A path from the root. The names on it are text, whatever their bytes are. -/
def path (p : Process) (path : String) : String :=
  if path = "" then ""
  else Path.join p.folder (String.ofList (Text.decodeLossy (bytesOf path)))

def disk (p : Process) : Disk := p.trace.disk

def withStatus (p : Process) (n : Nat) : Process := { p with status := n }

def exit (p : Process) (n : Nat) : Process := { p with ended := some (.exited (n % 256)) }

def edit (p : Process) (e : Edit) : Except OsError Process :=
  (p.trace.edit e).map fun t => { p with trace := t }

def emit (p : Process) (sink : Sink) (bytes : Bytes) : Process :=
  match sink with
  | .out => { p with out := bytes :: p.out }
  | .err => { p with err := bytes :: p.err }
  | .held place => { p with held := p.held.modify place (bytes :: ·) }
  | .nowhere | .closed => p
  | .file path =>
    let before := (p.disk.read path).toOption.getD []
    (p.edit (.write path (before ++ bytes))).toOption.getD p

def print (p : Process) (bytes : Bytes) : Process := p.emit p.streams.out bytes

def printLine (p : Process) (s : String) : Process := p.print (bytesOf (s ++ "\n"))

def complain (p : Process) (s : String) : Process := p.emit p.streams.err (bytesOf (s ++ "\n"))

def fail (p : Process) (n : Nat) (s : String) : Process := (p.complain s).withStatus n

def protest (p : Process) (n : Nat) (s : String) : Process :=
  p.fail n s!"{p.name}: {p.line}: {s}"

/-- A complaint of a command of the shell that cannot do what it was told to, which takes the
shell down if it is a special one. -/
def refuse (p : Process) (command s : String) : Process :=
  let p := p.protest 2 s!"{command}: {s}"
  if p.isMild ∨ !isSpecial command then p else p.exit 2

def object (p : Process) (n : Nat) (s : String) : Process :=
  p.protest n (if p.cause = "" then s else s!"{p.cause}: {s}")

def get? (p : Process) (name : String) : Option String := p.vars.lookup name

def set (p : Process) (name value : String) : Process :=
  { p with
    vars := (name, value) :: p.vars.filter fun v => v.1 != name
    optionAt := if name = "OPTIND" then 0 else p.optionAt
    exported := if p.has 'a' then name :: p.exported else p.exported }

def unset (p : Process) (name : String) : Process :=
  { p with vars := p.vars.filter fun v => v.1 != name }

def restore (p : Process) (name : String) : Option String → Process
  | some value => { p.unset name with vars := (name, value) :: (p.unset name).vars }
  | none => p.unset name

/-- Gives a name a value unless it has to keep the one it has. -/
def assign (p : Process) (name value : String) : Process :=
  if p.fixed.contains name then (p.object 2 s!"{name}: is read only").exit 2
  else p.set name value

def exportedVars (p : Process) : List (String × String) :=
  p.vars.filter fun v => p.exported.contains v.1

def printVariables (p : Process) : Process :=
  p.exportedVars.foldl (fun p v => p.printLine (v.1 ++ "=" ++ v.2)) p

def visit (p : Process) (args : List String) : Process :=
  match p.guest with
  | none => p.withStatus 0
  | some g =>
    let vars := p.exportedVars.map fun v => (v.1, bytesOf v.2)
    let a := g.answer ⟨args, p.folder, vars, p.disk⟩
    let write (p : Process) (f : String × Bytes) : Process :=
      let made := (p.edit (.makeFolders (Path.folder f.1))).toOption.getD p
      (made.edit (.write f.1 f.2)).toOption.getD made
    let p := (Disk.written p.disk a.disk).foldl write p
    ((p.print a.out).emit p.streams.err a.err).withStatus a.status

end Process

end FunctionJar.Shell
