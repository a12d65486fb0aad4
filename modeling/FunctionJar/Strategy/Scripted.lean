import FunctionJar.Work

namespace FunctionJar.Scripted

inductive Action
  | sleep (ms : Nat)
  | emit (path : String) (content : Text.Bytes)
  | write (path : String) (content : Text.Bytes)
  | fail (f : Failure)
  | panic (message : Option String)
  | rename (className : String)
  deriving DecidableEq, Repr

def perform (workspace : String) (u : CompiledUnit) : Action → Job CompiledUnit
  | .sleep ms => do
    Job.sleep ms
    return u
  | .emit path content => return { u with entries := u.entries ++ [⟨path, content⟩] }
  | .write path content => do
    Job.writeFile workspace path content
    return u
  | .fail f => Job.fail f
  | .panic message => throw (.panicked message)
  | .rename className => return { u with className := className }

def compile (tag : Option String) (script : List Action) (u : SourceUnit) (workspace : String) :
    Job CompiledUnit :=
  let tagged : List Entry := match tag with
    | some text => [⟨"tag", Text.utf8 text⟩]
    | none => []
  script.foldlM (perform workspace) ⟨u.className, u.dialect, tagged⟩

/-- `read` gives the actions that a unit's code stands for. -/
def strategy (read : String → List Action) (tag : Option String) : Strategy :=
  fun u workspace d => (compile tag (read u.code) u workspace).work d

end FunctionJar.Scripted
