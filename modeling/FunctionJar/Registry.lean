import FunctionJar.Strategy.Python
import FunctionJar.Strategy.Sql

namespace FunctionJar

structure Registry where
  strategy? : Dialect → Option Strategy

namespace Registry

def empty : Registry := ⟨fun _ => none⟩

/-- The registry with a strategy for a dialect, in place of the one it had. -/
def register (r : Registry) (d : Dialect) (s : Strategy) : Registry :=
  ⟨fun e => if e = d then some s else r.strategy? e⟩

def builtin (run : Launcher) (java scala : Toolchain) (python : Option Toolchain) : Registry :=
  (((empty.register .java (Jvm.strategy run .java java)).register .scala
    (Jvm.strategy run .scala scala)).register .python (Python.strategy run python)).register .sql
    (Sql.strategy run java)

def dialects (r : Registry) : List Dialect := Dialect.all.filter fun d => (r.strategy? d).isSome

def unsupported (d : Dialect) : Failure :=
  ⟨.unsupportedDialect, s!"no compiler registered for dialect '{d.name}'"⟩

def noOutput (u : SourceUnit) : Failure :=
  .diagnostic s!"{u.dialect.name} compiler produced no output for {u.className}"

def checked (u : SourceUnit) (w : Work) : Work :=
  match w.finish with
  | .compiled c => if c.entries.isEmpty then { w with finish := .failed (noOutput u) } else w
  | _ => w

def dispatch (r : Registry) (u : SourceUnit) (workspace : String) (d : Disk) : Work :=
  match r.strategy? u.dialect with
  | none => ⟨[], .failed (unsupported u.dialect)⟩
  | some s => checked u (s u workspace d)

end Registry

end FunctionJar
