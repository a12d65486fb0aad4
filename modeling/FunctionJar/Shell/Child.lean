import FunctionJar.Shell.Builtin
import FunctionJar.Shell.Program

namespace FunctionJar.Shell

open Text (Bytes)

def obituary : Nat → Option String
  | 1 => some "Hangup"
  | 3 => some "Quit"
  | 4 => some "Illegal instruction"
  | 5 => some "Trace/breakpoint trap"
  | 6 => some "Aborted"
  | 7 => some "Bus error"
  | 8 => some "Floating point exception"
  | 9 => some "Killed"
  | 10 => some "User defined signal 1"
  | 11 => some "Segmentation fault"
  | 12 => some "User defined signal 2"
  | 14 => some "Alarm clock"
  | 15 => some "Terminated"
  | 16 => some "Stack fault"
  | 24 => some "CPU time limit exceeded"
  | 25 => some "File size limit exceeded"
  | 26 => some "Virtual timer expired"
  | 27 => some "Profiling timer expired"
  | 29 => some "I/O possible"
  | 30 => some "Power failure"
  | 31 => some "Bad system call"
  | n =>
    if n = 32 ∨ n = 33 then some s!"Unknown signal {n}"
    else if 34 ≤ n ∧ n ≤ 64 then some s!"Real-time signal {n - 34}"
    else none

namespace Process

def ignoring (p : Process) : Traps := ⟨none, p.traps.atSignals.filter fun t => t.2 == "", none⟩

def inner (p : Process) : Process := { p with isInner := true, traps := p.ignoring, struck := [] }

def source (p : Process) : Process :=
  { p.inner with held := p.held ++ [[]], streams.out := .held p.held.length }

def lastHeld (p : Process) : Bytes := (p.held.getLastD []).reverse.flatten

def nextId (p : Process) : Nat := p.id + p.jobs.length + 1

/-- A program of its own, which waits for nothing but knows who waits for it. -/
def child (p : Process) : Process :=
  { p with
    id := p.nextId
    parents := p.id :: p.parents
    isInner := false
    traps := p.ignoring
    struck := [] }

/-- What another process leaves behind in this one: its effects, what it has printed and has not
read, and the signals it has sent. -/
def absorb (p other : Process) : Process :=
  let p : Process := { p with
    trace := other.trace
    out := other.out
    err := other.err
    held := other.held.take p.held.length
    streams.input := other.streams.input
    streams.inputs := p.streams.inputs.map fun (d, bytes) =>
      (d, (other.streams.inputs.lookup d).getD bytes)
    ended := if other.ended = some .hangs then some .hangs else p.ended }
  p.deliver other.struck

def outcome (other : Process) : Nat :=
  match other.ended with
  | none | some .hangs => other.status
  | some (.exited n) => n
  | some (.killed n _) => 128 + n

def await (p other : Process) : Process :=
  let p := p.absorb other
  let p := match other.ended with
    | some (.killed n _) => ((obituary n).map p.complain).getD p
    | _ => p
  p.withStatus other.outcome

/-- A failure ends the shell if it is told so, unless the failure is an answer. -/
def heed (p : Process) : Process :=
  if p.has 'e' ∧ !p.isTest ∧ !p.isStopped ∧ p.status ≠ 0 then p.exit p.status else p

def leave (p other : Process) : Process :=
  { (p.absorb other).withStatus 0 with
    jobs := (toString p.nextId, other.outcome) :: p.jobs
    streams.input := p.streams.input }

def searched (p : Process) (name : String) : List String :=
  match p.get? "PATH" with
  | some folders => candidates name folders
  | none => if name.toList.contains '/' then [name] else []

def located? (p : Process) (name : String) : Option String :=
  (firstOf (fileAt p) .notFound (p.searched name)).toOption

end Process

/-- Commands that the shell knows without looking for a file, because they run others. -/
def wrappers : List String := ["command", "eval", "exec", ".", "type", "hash"]

def own? (name : String) : Option Tool := (Process.builtins.lookup name).or (ownTools.lookup name)

inductive Meaning
  | keyword
  | function
  | builtin
  | file (path : String)
  deriving DecidableEq, Repr

namespace Meaning

def of? (p : Process) (name : String) : Option Meaning :=
  if keywords.contains name then some .keyword
  else if (p.functions.lookup name).isSome then some .function
  else if (own? name).isSome ∨ wrappers.contains name then some .builtin
  else (p.located? name).map .file

def describe (name : String) : Meaning → String
  | keyword => s!"{name} is a shell keyword"
  | function => s!"{name} is a shell function"
  | builtin =>
    if isSpecial name then s!"{name} is a special shell builtin" else s!"{name} is a shell builtin"
  | file path => s!"{name} is {path}"

end Meaning

def describe (p : Process) (name : String) : Process :=
  match Meaning.of? p name with
  | some m => p.printLine (m.describe name)
  | none => (p.printLine s!"{name}: not found").withStatus 127

def startText (e : OsError) : String :=
  match e with
  | .notFound | .notDirectory => "not found"
  | e => e.text

def startStatus (e : OsError) : Nat :=
  match e with
  | .notFound | .notDirectory | .tooManyLinks | .nameTooLong => 127
  | _ => 126

def openText (e : OsError) : String :=
  match e with
  | .notFound | .notDirectory => "Directory nonexistent"
  | e => e.text

def inputText (e : OsError) : String :=
  match e with
  | .notFound | .notDirectory => "No such file"
  | e => e.text

def Process.freshShell (p : Process) : Process :=
  let known := p.vars.filter fun v => p.exported.contains v.1
  let own := [("PWD", p.folder), ("IFS", " \t\n"), ("OPTIND", "1"), ("PS1", "# "), ("PS2", "> "),
    ("PS4", "+ "), ("PPID", toString (p.parents.headD 1))]
  { p with
    vars := own ++ (known.filter fun v => (own.lookup v.1).isNone) ++
      if (known.lookup "PATH").isSome then [] else [("PATH", Process.programFolders)]
    exported := "PWD" :: p.exported
    fixed := []
    outer := none
    functions := []
    modes := []
    isTest := false
    loops := 0
    jobs := []
    optionAt := 0
    cause := ""
    isMild := false
    line := 0
    status := 0 }

def slot (name : String) : Nat :=
  let bytes := (bytesOf name).map UInt8.toNat
  (bytes.headD 0 * 16 + total id bytes) % 39

def Process.ordered (p : Process) : Process :=
  { p with vars := p.vars.reverse.mergeSort fun a b => slot a.1 ≤ slot b.1 }

def environment (p : Process) : List String → Except String (Process × List String)
  | [] => .ok (p, [])
  | "-" :: rest => environment { p with vars := [], exported := [] } rest
  | "--" :: rest => .ok (assigned p rest)
  | arg :: rest =>
    match arg.toList, rest with
    | ['-', 'i'], rest => environment { p with vars := [], exported := [] } rest
    | ['-', 'u'], name :: rest => environment (p.unset name) rest
    | ['-', 'C'], folder :: rest => environment { p with folder := p.path folder } rest
    | '-' :: 'u' :: c :: cs, rest => environment (p.unset (String.ofList (c :: cs))) rest
    | '-' :: 'u' :: [], [] | '-' :: 'C' :: [], [] =>
      let letter := arg.drop 1 |>.toString
      .error s!"option requires an argument -- '{letter}'"
    | '-' :: '-' :: _, _ => .error s!"unrecognized option '{arg}'"
    | '-' :: c :: _, _ => .error s!"invalid option -- '{c}'"
    | _, _ => .ok (assigned p (arg :: rest))
where
  assigned (p : Process) (rest : List String) : Process × List String :=
    let given := rest.takeWhile fun arg => arg.toList.contains '='
    let give (p : Process) (arg : String) : Process :=
      let (name, value) : String × Option String := Process.declared arg
      let value := value.getD ""
      if (p.get? name).isSome ∧ p.exported.contains name then
        { p with vars := p.vars.map fun v => if v.1 = name then (name, value) else v }
      else { (p.unset name) with
        vars := (p.unset name).vars ++ [(name, value)]
        exported := name :: p.exported }
    (given.foldl give p, rest.drop given.length)

end FunctionJar.Shell
