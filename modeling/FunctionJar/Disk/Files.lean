import FunctionJar.Disk.Basic

namespace FunctionJar

open Text (Bytes)

namespace Node

mutual

def files (path : String) : Node → List (String × Bytes)
  | file content _ => [(path, content)]
  | folder items => filesIn path items
  | link _ => []

def filesIn (path : String) : List (String × Node) → List (String × Bytes)
  | [] => []
  | (name, n) :: rest => files (path ++ "/" ++ name) n ++ filesIn path rest

end

end Node

namespace Disk

def files (d : Disk) : List (String × Bytes) := d.root.files ""

/-- A disk with nothing but these folders and files, each in a folder of its own making. -/
def ofFiles (here : String) (folders : List String) (files : List (String × Bytes)) : Disk :=
  let empty : Disk := ⟨.empty, (Path.parts here).filter fun part => !Path.isIdle part⟩
  let made := (here :: folders).foldl (fun d path => d.applied (.makeFolders path)) empty
  files.foldl (fun d f =>
    (d.applied (.makeFolders (Path.folder f.1))).applied (.write f.1 f.2)) made

def written (before after : Disk) : List (String × Bytes) :=
  after.files.filter fun f => before.files.lookup f.1 != some f.2

end Disk

end FunctionJar
