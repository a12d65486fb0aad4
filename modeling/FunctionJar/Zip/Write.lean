import FunctionJar.Compiled
import FunctionJar.Zip.Crc32
import FunctionJar.Zip.Record

namespace FunctionJar.Zip

open Text (Bytes)

def localSignature : Nat := 0x04034b50

def centralSignature : Nat := 0x02014b50

def endSignature : Nat := 0x06054b50

def wideSignature : Nat := 0x06064b50

def pointerSignature : Nat := 0x07064b50

def version : Nat := 20

def wideVersion : Nat := 45

def utf8Flag : Nat := 2048

def stored : Nat := 0

def deflated : Nat := 8

def date : Nat := 33

def description (extra : Nat) (e : Entry) : List (Nat × Nat) :=
  let size := e.content.length
  [(2, version), (2, utf8Flag), (2, stored), (2, 0), (2, date),
    (4, (Crc32.checksum e.content).toNat), (4, size), (4, size), (2, (Text.utf8 e.path).length),
    (2, extra)]

def localRecord (e : Entry) : Bytes :=
  record ((4, localSignature) :: description 0 e) ++ Text.utf8 e.path ++ e.content

/-- The sizes of a file and the place of its record, as far as only an extra field has room. -/
def wideNumbers (start : Nat) (e : Entry) : List Nat :=
  [e.content.length, e.content.length, start].filter (wide ≤ ·)

def wideTag : Nat := 1

def extra (start : Nat) (e : Entry) : Bytes :=
  match wideNumbers start e with
  | [] => []
  | ns => record ([(2, wideTag), (2, 8 * ns.length)] ++ ns.map fun n => (8, n))

def centralRecord (start : Nat) (e : Entry) : Bytes :=
  record ((4, centralSignature) :: (2, version) :: description (extra start e).length e ++
    [(2, 0), (2, 0), (2, 0), (4, 0), (4, min start wide)]) ++ Text.utf8 e.path ++ extra start e

def directory (start : Nat) : List Entry → Bytes
  | [] => []
  | e :: rest => centralRecord start e ++ directory (start + (localRecord e).length) rest

/-- The record of a directory whose numbers are too large for the last record, with the record
that says where it is. -/
def wideRecords (count size start : Nat) : Bytes :=
  record [(4, wideSignature), (8, 44), (2, wideVersion), (2, wideVersion), (4, 0), (4, 0),
    (8, count), (8, count), (8, size), (8, start)] ++
  record [(4, pointerSignature), (4, 0), (8, start + size), (4, 1)]

def endRecord (count size start : Nat) : Bytes :=
  let narrow := record [(4, endSignature), (2, 0), (2, 0), (2, min count wideCount),
    (2, min count wideCount), (4, min size wide), (4, min start wide), (2, 0)]
  if wideCount ≤ count ∨ wide ≤ max size start then wideRecords count size start ++ narrow
  else narrow

def localRecords (files : List Entry) : Bytes := (files.map localRecord).flatten

def pieces (files : List Entry) : List Bytes :=
  let start := (localRecords files).length
  let central := directory 0 files
  files.map localRecord ++ [central, endRecord files.length central.length start]

def write (files : List Entry) : Bytes := (pieces files).flatten

/-- No file is too large for the record in front of it, and the archive is no larger than files can
be. -/
def fits (files : List Entry) : Bool :=
  files.all (fun e => (Text.utf8 e.path).length ≤ wideCount && e.content.length ≤ wide)
    && (write files).length < Nat.pow 2 63

end FunctionJar.Zip
