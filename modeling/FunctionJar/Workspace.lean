import FunctionJar.Definition
import FunctionJar.Disk.Basic
import FunctionJar.Disk.Fresh

namespace FunctionJar.Workspace

inductive Fault
  | root (path : String) (e : OsError)
  | allocate (className : String) (e : OsError)
  | create (path : String) (e : OsError)
  | write (path : String) (e : OsError)
  | release (path : String) (e : OsError)
  deriving DecidableEq, Repr

namespace Fault

def message : Fault → String
  | root path e => s!"cannot create workspace root {path}: {e.message}"
  | allocate className e => s!"cannot allocate workspace for {className}: {e.message}"
  | create path e => s!"cannot create {path}: {e.message}"
  | write path e => s!"cannot write {path}: {e.message}"
  | release path e => s!"cannot release {path}: {e.message}"

def failure (f : Fault) : Failure := .workspace f.message

end Fault

def stem (index : Nat) (className : String) : String :=
  "udf-" ++ Text.padLeft 4 '0' (toString index) ++ "-" ++ ClassName.simple className ++ "-"

def absolute (d : Disk) (path : String) : String :=
  if Path.isAbsolute path then path
  else Path.join ("/" ++ Text.join "/" d.here) path

def pick (d : Disk) (root : String) (held : List String) (index : Nat) (className : String) :
    String :=
  let taken := (d.list root).toOption.getD [] ++ held.filterMap Path.fileName
  Path.join (absolute d root) (freshName (stem index className) "" taken)

def allocate (d : Disk) (root : String) (held : List String) (index : Nat) (className : String) :
    Except Fault (String × Disk) := do
  let d ← (d.apply (.makeFolders root)).mapError (Fault.root root)
  let path := pick d root held index className
  let d ← (d.apply (.makeFolder path)).mapError (Fault.allocate className)
  return (path, d)

def classFolder (path : String) : String := Path.join path "classes"

/-- The edits that write a file inside a workspace, and the fault if one of them cannot be done. -/
def writeEdits (path relative : String) (content : Text.Bytes) : List (Edit × (OsError → Fault)) :=
  let target := Path.join path relative
  let folders := match Path.parent target with
    | some parent => [(.makeFolders parent, Fault.create parent)]
    | none => []
  folders ++ [(.write target content, Fault.write target)]

def writeFile (d : Disk) (path relative : String) (content : Text.Bytes) : Except Fault Disk :=
  (writeEdits path relative content).foldlM (fun d (e, fault) => (d.apply e).mapError fault) d

def release (d : Disk) (path : String) : Except Fault Disk := do
  if (d.read path).isOk then throw (.release path .notDirectory)
  (d.apply (.remove path)).mapError (Fault.release path)

/-- The disk without a workspace that is let go; nothing is said if that fails. -/
def discard (d : Disk) (path : String) : Disk := (release d path).toOption.getD d

end FunctionJar.Workspace
