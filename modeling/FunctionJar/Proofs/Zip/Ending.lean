import FunctionJar.Proofs.Zip.Item

namespace FunctionJar.Zip

open Text (Bytes)

variable {bytes front rest : Bytes} {files : List Entry} {n k : Nat}

/-- The wide record of the directory and the one that says where it is, if they are there. -/
def wideTail (files : List Entry) : Bytes :=
  if wideCount ≤ files.length ∨ wide ≤ max (directory 0 files).length (localRecords files).length
  then wideRecords files.length (directory 0 files).length (localRecords files).length
  else []

def wideRecordNumbers (files : List Entry) : List (Nat × Nat) :=
  [(4, wideSignature), (8, 44), (2, wideVersion), (2, wideVersion), (4, 0), (4, 0),
    (8, files.length), (8, files.length), (8, (directory 0 files).length),
    (8, (localRecords files).length)]

/-- The numbers of the record that says where the wide one is. -/
def pointerNumbers (files : List Entry) : List (Nat × Nat) :=
  [(4, pointerSignature), (4, 0),
    (8, (localRecords files).length + (directory 0 files).length), (4, 1)]

/-- The two records that only large archives have. -/
def Wide (files : List Entry) : Prop :=
  wideTail files = record (wideRecordNumbers files) ++ record (pointerNumbers files)

theorem Wide.eq (hwide : Wide files) :
    wideTail files = record (wideRecordNumbers files) ++ record (pointerNumbers files) := hwide

end FunctionJar.Zip
