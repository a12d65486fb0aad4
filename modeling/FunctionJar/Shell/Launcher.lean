import FunctionJar.Shell.Run
import FunctionJar.Total

namespace FunctionJar.Shell

open Text (Bytes)

def longestArg : Nat := 131072

def depthFor (args : List String) : Nat := 1000 + total String.length args

def launcher (guest : Option Guest) (vars : List (String × Bytes)) : Launcher :=
    fun t extra folder trace => do
  let args := t.args ++ extra
  if (t.program :: args).any Disk.hasNul then throw .nulInArgs
  if t.program = "" then throw .notFound
  let disk := trace.disk.withRoot (trace.disk.root.layered (system guest))
  let here := "/" ++ Text.join "/" ((disk.resolve folder).toOption.getD disk.here)
  let given := vars.map fun v => (v.1, String.ofList (textOf v.2))
  let usual := Process.usualVars.filter fun v => (given.lookup v.1).isNone
  let ready := Process.start { trace with disk := disk } guest here t.program args (given ++ usual)
  let (path, l) ← launchFrom ready (ready.searched t.program)
  if l.tool.isNone then throw .badFormat
  if args.any fun arg => longestArg ≤ arg.utf8ByteSize + 1 then throw .tooManyArgs
  let p := start (depthFor args) l t.program path args ready
  return (p.trace, ⟨p.ended.getD (.exited p.status), p.output, p.errors⟩)

end FunctionJar.Shell
