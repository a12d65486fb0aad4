import FunctionJar.Archive.Artifact
import FunctionJar.Archive.Replace
import FunctionJar.Log.Batch

namespace FunctionJar.Archive

open Text (Bytes)

/-- The entries whose paths have not come before, and the paths of the others. -/
def firsts (seen : List String) : List Entry → List Entry × List String
  | [] => ([], [])
  | e :: rest =>
    if seen.contains e.path then
      let (kept, shared) := firsts seen rest
      (kept, e.path :: shared)
    else
      let (kept, shared) := firsts (seen ++ [e.path]) rest
      (e :: kept, shared)

def classNames (units : List CompiledUnit) : List String := units.map (·.className)

def entries (units : List CompiledUnit) : List Entry := units.flatMap (·.entries)

def headFiles (units : List CompiledUnit) : List Entry :=
  [⟨manifestPath, manifest⟩, ⟨indexPath, index (classNames units)⟩]

def contents (units : List CompiledUnit) : List Entry :=
  headFiles units ++ (firsts [manifestPath, indexPath] (entries units)).1

def sharedPaths (units : List CompiledUnit) : List String :=
  (firsts [manifestPath, indexPath] (entries units)).2

def sharedEvent (path : String) : Log.Event where
  level := .debug
  target := "udf_build::archive"
  fields := [("message", .str "shared archive entry already written"), ("entry", .str path)]
  inBatch := false

structure Assembled where
  disks : List Disk
  disk : Disk
  events : List Log.Event
  outcome : Except WriteFault (Option Artifact)

def assemble (refusals : Refusals) (d : Disk) (path : String) (units : List CompiledUnit) :
    Assembled :=
  if units.isEmpty then ⟨[d], d, [Log.archiveSkipped path], .ok none⟩
  else
    let files := contents units
    let shared := (sharedPaths units).map sharedEvent
    let p := replace refusals d path (Zip.pieces files) (Zip.fits files)
    match p.refused with
    | some fault => ⟨d :: p.disks, p.last, shared, .error fault⟩
    | none =>
      let a := Artifact.ofBytes path (classNames units) (Zip.write files)
      let written := Log.archiveWritten path a.classes.length a.size a.digest
      ⟨d :: p.disks, p.last, shared ++ [written], .ok (some a)⟩

end FunctionJar.Archive
