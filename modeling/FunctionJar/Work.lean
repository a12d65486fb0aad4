import FunctionJar.Compiled
import FunctionJar.Step
import FunctionJar.Toolchain
import FunctionJar.Workspace

namespace FunctionJar

open Text (Bytes)

inductive Finish
  | compiled (u : CompiledUnit)
  | failed (f : Failure)
  | panicked (message : Option String)
  | hangs
  deriving DecidableEq, Repr

structure Work where
  steps : List Step
  finish : Finish

/-- A way to compile units: what it does with a unit in a workspace, on a disk. -/
abbrev Strategy := SourceUnit → String → Disk → Work

inductive Stop
  | failed (f : Failure)
  | panicked (message : Option String)
  | hangs

abbrev Job := ExceptT Stop (StateM Trace)

namespace Job

def fail {α : Type} (f : Failure) : Job α := throw (.failed f)

def ofExcept {α ε : Type} (failure : ε → Failure) : Except ε α → Job α
  | .ok a => pure a
  | .error e => fail (failure e)

def edit (e : Edit) (failure : OsError → Failure) : Job Unit := do
  let t ← get
  set (← ofExcept failure (t.edit e))

def sleep (ms : Nat) : Job Unit := modify fun t => t.sleep ms

def note (event : Log.Event) : Job Unit := modify fun t => t.note event

def writeFile (workspace relative : String) (content : Bytes) : Job Unit :=
  (Workspace.writeEdits workspace relative content).forM fun (e, fault) =>
    edit e fun os => (fault os).failure

def launch (run : Launcher) (t : Toolchain) (extra : List String) (workspace : String) :
    Job Toolchain.Output := do
  let launchFailure (e : OsError) : Failure :=
    .diagnostic s!"failed to launch {t.program}: {e.message}"
  let (after, output) ← ofExcept launchFailure (run t extra workspace (← get))
  set after
  if output.ending = .hangs then throw .hangs
  return output

/-- Fails with the diagnostic of a program unless it has succeeded. -/
def succeed (t : Toolchain) (output : Toolchain.Output) : Job Unit :=
  if output.ending = .exited 0 then pure ()
  else fail (.diagnostic (Toolchain.diagnostic t.program output))

def work (job : Job CompiledUnit) (d : Disk) : Work :=
  match (job.run).run (.start d) with
  | (.ok u, t) => ⟨t.steps, .compiled u⟩
  | (.error (.failed f), t) => ⟨t.steps, .failed f⟩
  | (.error (.panicked m), t) => ⟨t.steps, .panicked m⟩
  | (.error .hangs, t) => ⟨t.steps, .hangs⟩

end Job

end FunctionJar
