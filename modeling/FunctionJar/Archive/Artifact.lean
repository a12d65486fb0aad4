import FunctionJar.Archive.Index
import FunctionJar.Archive.Sha256
import FunctionJar.Disk.Basic
import FunctionJar.Zip.Read

namespace FunctionJar.Archive

open Text (Bytes)

structure Artifact where
  path : String
  classes : List String
  digest : String
  size : Nat
  deriving DecidableEq, Repr

namespace Artifact

def ofBytes (path : String) (classes : List String) (bytes : Bytes) : Artifact :=
  ⟨path, classes, Text.hex (Sha256.digest bytes), bytes.length⟩

def contains (a : Artifact) (className : String) : Bool := a.classes.contains className

end Artifact

inductive ReadFault
  | os (e : OsError)
  | notArchive
  deriving DecidableEq, Repr

def contentOf? (bytes : Bytes) (name : String) : Option Bytes := do
  let items ← Zip.directory? bytes
  let item ← Zip.find? items name
  Zip.content? bytes item

def entryNames? (bytes : Bytes) : Option (List String) := (Zip.directory? bytes).map Zip.names

def classes? (bytes : Bytes) : Option (List String) := do
  let index ← contentOf? bytes indexPath
  let text ← Text.decode? index
  return classesOf text

def readWith {α : Type} (read : Bytes → Option α) (d : Disk) (path : String) :
    Except ReadFault α :=
  match d.read path with
  | .error e => .error (.os e)
  | .ok bytes =>
    match read bytes with
    | none => .error .notArchive
    | some a => .ok a

def inspect (d : Disk) (path : String) : Except ReadFault Artifact :=
  readWith (fun bytes => (classes? bytes).map fun cs => .ofBytes path cs bytes) d path

/-- Every path in the archive, in the archive's order. -/
def entryNames (d : Disk) (path : String) : Except ReadFault (List String) :=
  readWith entryNames? d path

def filesOf? (bytes : Bytes) : Option (List Entry) := do
  let names ← entryNames? bytes
  names.mapM fun name => (contentOf? bytes name).map (⟨name, ·⟩)

/-- Every file in the archive, in the archive's order. -/
def files (d : Disk) (path : String) : Except ReadFault (List Entry) := readWith filesOf? d path

end FunctionJar.Archive
