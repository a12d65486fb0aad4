namespace FunctionJar

inductive FailureKind
  | invalidDefinition
  | unsupportedDialect
  | compileError
  | timeout
  | workspaceError
  | panicked
  deriving DecidableEq, Repr

namespace FailureKind

def name : FailureKind → String
  | invalidDefinition => "invalid_definition"
  | unsupportedDialect => "unsupported_dialect"
  | compileError => "compile_error"
  | timeout => "timeout"
  | workspaceError => "workspace_error"
  | panicked => "panicked"

def all : List FailureKind :=
  [invalidDefinition, unsupportedDialect, compileError, timeout, workspaceError, panicked]

def ofName? (s : String) : Option FailureKind := all.find? fun k => k.name == s

end FailureKind

structure Failure where
  kind : FailureKind
  reason : String
  deriving DecidableEq, Repr

namespace Failure

/-- What a compiler says about a source. -/
def diagnostic (reason : String) : Failure := ⟨.compileError, reason⟩

def workspace (reason : String) : Failure := ⟨.workspaceError, reason⟩

def display (f : Failure) : String := s!"{f.kind.name}: {f.reason}"

end Failure

end FunctionJar
