import FunctionJar.Sql.Function
import FunctionJar.Strategy.Jvm

namespace FunctionJar.Sql

def compile (run : Launcher) (java : Toolchain) (u : SourceUnit) (workspace : String) :
    Job CompiledUnit := do
  let f ← Job.ofExcept (fun f => .diagnostic f.message) (Function.parse u.code)
  let compiled ← Jvm.compileSource run .java java u (f.classText u.className) workspace
  return { compiled with dialect := .sql }

def strategy (run : Launcher) (java : Toolchain) : Strategy := fun u workspace d =>
  (compile run java u workspace).work d

end FunctionJar.Sql
