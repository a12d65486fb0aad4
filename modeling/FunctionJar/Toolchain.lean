import FunctionJar.Step
import FunctionJar.Text.Boundary

namespace FunctionJar

open Text (Bytes)

structure Toolchain where
  program : String
  args : List String
  deriving DecidableEq, Repr

namespace Toolchain

def named (program : String) : Toolchain := ⟨program, []⟩

inductive Ending
  | exited (code : Nat)
  | killed (signal : Nat) (dumped : Bool)
  | hangs
  deriving DecidableEq, Repr

structure Output where
  ending : Ending
  out : Bytes
  err : Bytes
  deriving DecidableEq, Repr

def signalName : Nat → Option String
  | 1 => some "SIGHUP"
  | 2 => some "SIGINT"
  | 3 => some "SIGQUIT"
  | 4 => some "SIGILL"
  | 5 => some "SIGTRAP"
  | 6 => some "SIGABRT"
  | 7 => some "SIGBUS"
  | 8 => some "SIGFPE"
  | 9 => some "SIGKILL"
  | 10 => some "SIGUSR1"
  | 11 => some "SIGSEGV"
  | 12 => some "SIGUSR2"
  | 13 => some "SIGPIPE"
  | 14 => some "SIGALRM"
  | 15 => some "SIGTERM"
  | 16 => some "SIGSTKFLT"
  | 17 => some "SIGCHLD"
  | 18 => some "SIGCONT"
  | 19 => some "SIGSTOP"
  | 20 => some "SIGTSTP"
  | 21 => some "SIGTTIN"
  | 22 => some "SIGTTOU"
  | 23 => some "SIGURG"
  | 24 => some "SIGXCPU"
  | 25 => some "SIGXFSZ"
  | 26 => some "SIGVTALRM"
  | 27 => some "SIGPROF"
  | 28 => some "SIGWINCH"
  | 29 => some "SIGIO"
  | 30 => some "SIGPWR"
  | 31 => some "SIGSYS"
  | _ => none

def statusText : Ending → String
  | .exited code => s!"exit status: {code}"
  | .killed signal dumped =>
    let named := match signalName signal with
      | some name => s!"signal: {signal} ({name})"
      | none => s!"signal: {signal}"
    if dumped then s!"{named} (core dumped)" else named
  | .hangs => "still running"

def longestDiagnostic : Nat := 8 * 1024

def diagnostic (program : String) (o : Output) : String :=
  let texts := [o.err, o.out].map fun bytes => Text.trim (Text.decodeLossy bytes)
  match texts.find? fun t => !t.isEmpty with
  | some t => String.ofList (Text.truncate longestDiagnostic t)
  | none => s!"{program} exited with {statusText o.ending}"

end Toolchain

/-- A way to run programs, each with its own arguments and further ones, in a folder. It says what
the program does to the disk on the way and what it leaves behind, or why it cannot be started. -/
abbrev Launcher :=
  Toolchain → List String → String → Trace → Except OsError (Trace × Toolchain.Output)

end FunctionJar
