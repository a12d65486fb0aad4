import FunctionJar.Zip.Ending
import FunctionJar.Zip.Inflate
import FunctionJar.Zip.Item

namespace FunctionJar.Zip

open Text (Bytes)

def centralWidths : List Nat := [4, 2, 2, 2, 2, 2, 2, 4, 4, 4, 2, 2, 2, 2, 2, 4, 4]

def item? (bytes : Bytes) : Option (Item × Bytes) :=
  match fields? centralWidths bytes with
  | some ([signature, _, _, flags, method, _, _, crc, packed, size, name, extra, comment, _, _, _,
      start], rest) => do
    if signature ≠ centralSignature then none
    let (name, rest) ← take? name rest
    let (extra, rest) ← take? extra rest
    let (comment, rest) ← take? comment rest
    let item : Item :=
      ⟨name, textOf flags name, textOf flags comment, flags, method, crc, packed, size, start, false⟩
    return (← item.amended? extra, rest)
  | _ => none

/-- The items of a directory, in front of which all files have to begin. -/
def items? (e : Extent) : Nat → Bytes → Option (List Item)
  | 0, _ => some []
  | n + 1, rest => do
    let (item, rest) ← item? rest
    let item := { item with start := item.start + e.shift }
    if e.home ≤ item.start then none
    return item :: (← items? e n rest)

def directoryAt? (bytes : Bytes) (place : Nat) : Option (List Item) := do
  let e ← extentAt? bytes place
  items? e e.count (bytes.drop e.home)

def directory? (bytes : Bytes) : Option (List Item) :=
  (placesOf endSignature bytes).findSome? (directoryAt? bytes)

def names (items : List Item) : List String := (items.map (·.name)).eraseDups

def find? (items : List Item) (name : String) : Option Item :=
  items.reverse.find? fun i => i.name == name

def localWidths : List Nat := [4, 2, 2, 2, 2, 2, 4, 4, 4, 2, 2]

/-- Where the content of a file begins whose record begins at `start`. -/
def contentStart? (bytes : Bytes) (start : Nat) : Option Nat :=
  match fields? localWidths (bytes.drop start) with
  | some ([signature, _, _, _, _, _, _, _, _, name, extra], _) =>
    if signature = localSignature then some (start + total id localWidths + name + extra) else none
  | _ => none

def unpack? (method : Nat) (packed : Bytes) : Option Bytes :=
  if method = stored then some packed
  else if method = deflated then Inflate.inflate? packed
  else none

def content? (bytes : Bytes) (i : Item) : Option Bytes := do
  if i.isEncrypted then none
  let start ← contentStart? bytes i.start
  let content ← unpack? i.method ((bytes.drop start).take i.packed)
  if (Crc32.checksum content).toNat = i.crc then some content else none

end FunctionJar.Zip
