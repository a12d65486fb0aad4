import FunctionJar.Compiled
import FunctionJar.Disk.Basic

namespace FunctionJar.Disk

def extension? (name : String) : Option String :=
  match (Text.splitAt '.' name.toList).reverse with
  | [] | [_] => none
  | last :: before => if before = [[]] then none else some (String.ofList last)

def isClassFile (name : String) : Bool := extension? name == some "class"

def under (root path : String) : String := if path = "" then root else Path.join root path

/-- The class files that the folder at `path` from `root` leads to in so many steps down. A file
that cannot be read is a fault only if it is one of them. -/
def classFilesBelow (d : Disk) (root : String) : Nat → String → Except OsError (List Entry)
  | 0, _ => .ok []
  | depth + 1, path => do
    let found ← (← d.list (under root path)).mapM fun name => do
      let below := if path = "" then name else path ++ "/" ++ name
      if d.isFolder (under root below) then classFilesBelow d root depth below
      else if isClassFile name then return [⟨below, ← d.read (under root below)⟩]
      else return []
    return found.flatten

def classFiles (d : Disk) (root : String) : Except OsError (List Entry) := do
  return (← classFilesBelow d root longestPath "").mergeSort fun a b => a.path ≤ b.path

end FunctionJar.Disk
