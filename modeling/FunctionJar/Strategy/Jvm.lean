import FunctionJar.Disk.Classes
import FunctionJar.Jvm
import FunctionJar.Work

namespace FunctionJar.Jvm

def finished (t : Toolchain) (source : String) (o : Toolchain.Output) : Log.Event where
  level := .debug
  target := "udf_build::dialect::jvm"
  fields := [("message", .str "toolchain finished"), ("program", .str t.program),
    ("source", .str source), ("status", .str (Toolchain.statusText o.ending))]
  inBatch := false

def collect (workspace : String) : Job (List Entry) := do
  let unreadable (e : OsError) : Failure := .workspace s!"cannot read class output: {e.message}"
  Job.ofExcept unreadable ((← get).disk.classFiles (Workspace.classFolder workspace))

/-- Compiles `source` as the body of a unit. -/
def compileSource (run : Launcher) (language : Language) (t : Toolchain) (u : SourceUnit)
    (source : String) (workspace : String) : Job CompiledUnit := do
  Job.ofExcept (fun f => .diagnostic f.message) (check language u.className source)
  let relative := sourcePath u.className language.extension
  Job.writeFile workspace relative (Text.utf8 source)
  let classes := Workspace.classFolder workspace
  Job.edit (.makeFolders classes) fun e => (Workspace.Fault.create classes e).failure
  let output ← Job.launch run t ["-d", "classes", relative] workspace
  Job.note (finished t relative output)
  Job.succeed t output
  let entries ← collect workspace
  let expected := classPath u.className
  if !entries.any fun e => e.path == expected then
    Job.fail (.diagnostic s!"{t.program} produced no {expected}")
  return ⟨u.className, u.dialect, entries⟩

def strategy (run : Launcher) (language : Language) (t : Toolchain) : Strategy :=
  fun u workspace d => (compileSource run language t u u.code workspace).work d

end FunctionJar.Jvm
