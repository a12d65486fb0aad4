import FunctionJar.Proofs.Except
import FunctionJar.Proofs.Text.Utf8
import FunctionJar.Zip.Read

namespace FunctionJar.Zip

open Text (Bytes)

variable {files : List Entry} {e : Entry} {start : Nat}

/-- What the records of an archive have room for. -/
structure Fits (files : List Entry) : Prop where
  path : ∀ e ∈ files, (Text.utf8 e.path).length ≤ wideCount
  content : ∀ e ∈ files, e.content.length ≤ wide
  size : (write files).length < Nat.pow 2 63

/-- The numbers in the listing of a file. -/
def central (start : Nat) (e : Entry) : List (Nat × Nat) :=
  (4, centralSignature) :: (2, version) :: description (extra start e).length e ++
    [(2, 0), (2, 0), (2, 0), (4, 0), (4, min start wide)]

end FunctionJar.Zip
