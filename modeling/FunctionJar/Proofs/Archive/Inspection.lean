import FunctionJar.Proofs.Archive.Contents
import FunctionJar.Proofs.Archive.Index
import FunctionJar.Proofs.Archive.Replacement
import FunctionJar.Proofs.Disk.Folder
import FunctionJar.Proofs.Zip.Read

namespace FunctionJar

open Text (Bytes)

namespace Archive

variable {refusals : Refusals} {d d' : Disk} {path target temp : String} {p : Passage}
  {pieces : List Bytes} {room : Bool} {us : List CompiledUnit} {a : Artifact}

variable {made : Disk} {above : List String} {items : List (String × Node)} {n k : Nat}

variable {files : List Entry} {e : Entry}

def paths (us : List CompiledUnit) : List String :=
  (((entries us).map (·.path)).filter fun path => !isReserved path).eraseDups

def shared : List CompiledUnit :=
  [⟨"p.A", .java, [⟨"p/A.class", [1]⟩, ⟨"p/H.class", [2]⟩]⟩,
    ⟨"p.B", .java, [⟨"p/H.class", [2]⟩, ⟨"p/B.class", [3]⟩, ⟨"p/B.class", [4]⟩]⟩]

end Archive

end FunctionJar
