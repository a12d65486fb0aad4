import FunctionJar.Python
import FunctionJar.Work

namespace FunctionJar.Python

def byteCompile (run : Launcher) (t : Toolchain) (u : SourceUnit) (content : Text.Bytes)
    (workspace : String) : Job Unit := do
  let relative := entryPath u.className
  Job.writeFile workspace relative content
  let output ← Job.launch run t ["-m", "py_compile", Path.join workspace relative] workspace
  Job.succeed t output

def compile (run : Launcher) (interpreter : Option Toolchain) (u : SourceUnit)
    (workspace : String) : Job CompiledUnit := do
  Job.ofExcept (fun f => .diagnostic f.message) (validate u.code u.simpleName)
  let content := Text.utf8 (wrap u)
  if let some t := interpreter then byteCompile run t u content workspace
  return ⟨u.className, .python, [⟨entryPath u.className, content⟩]⟩

def strategy (run : Launcher) (interpreter : Option Toolchain) : Strategy := fun u workspace d =>
  (compile run interpreter u workspace).work d

end FunctionJar.Python
