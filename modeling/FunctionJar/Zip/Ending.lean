import FunctionJar.Zip.Record
import FunctionJar.Zip.Write

namespace FunctionJar.Zip

open Text (Bytes)

structure Ending where
  made : Nat
  needed : Nat
  disk : Nat
  home : Nat
  here : Nat
  total : Nat
  start : Nat

def endWidths : List Nat := [4, 2, 2, 2, 2, 4, 4, 2]

def ending? (bytes : Bytes) : Option Ending :=
  match fields? endWidths bytes with
  | some ([_, disk, home, here, total, _, start, comment], rest) =>
    (take? comment rest).map fun _ => ⟨0, 0, disk, home, here, total, start⟩
  | _ => none

def Ending.isFull (e : Ending) : Bool := e.total == wideCount || e.start == wide

def wideWidths : List Nat := [4, 8, 2, 2, 4, 4, 8, 8, 8, 8]

def wideSize : Nat := total id wideWidths

/-- A wide record that takes up the given room and is of the same disk as the record behind it. -/
def wideEnding? (room home : Nat) (bytes : Bytes) : Option Ending :=
  match fields? wideWidths bytes with
  | some ([_, size, made, needed, disk, home', here, total, _, start], _) =>
    if wideSize ≤ room && size + 12 == room && home' == home then
      some ⟨made, needed, disk, home, here, total, start⟩
    else none
  | _ => none

/-- The record in front of the last one: a disk, where the wide record is, and how many disks. -/
def pointer? (bytes : Bytes) : Option (Nat × Nat × Nat) :=
  match fields? [4, 4, 8, 4] bytes with
  | some ([signature, home, place, disks], _) =>
    if signature = pointerSignature then some (home, place, disks) else none
  | _ => none

def places (signature : Bytes) (found : List Nat) (n : Nat) : Bytes → List Nat
  | [] => found
  | b :: rest =>
    let found := if signature.isPrefixOf (b :: rest) then n :: found else found
    places signature found (n + 1) rest

def placesOf (signature : Nat) (bytes : Bytes) : List Nat :=
  places (little 4 signature) [] 0 bytes

def placesWithin (signature : Nat) (bytes : Bytes) (start stop : Nat) : List Nat :=
  (placesOf signature bytes).reverse.filter fun n => start ≤ n && n < stop

structure Extent where
  shift : Nat
  home : Nat
  count : Nat

def Ending.extent? (bytes : Bytes) (place : Nat) (e : Ending) : Option Extent := do
  let shift ←
    if e.total = 0 then some (place - e.start)
    else (placesWithin centralSignature bytes e.start place).head?.map (· - e.start)
  if e.disk ≠ e.home then none else some ⟨shift, e.start + shift, e.here⟩

def Ending.hasRoom (place : Nat) (e : Ending) : Bool := e.start + 46 * e.total ≤ place

def wideExtent? (bytes : Bytes) (behind home place disks : Nat) : Option Extent := do
  if 1 < disks then none
  let found (n : Nat) : Option (Nat × Ending) :=
    (wideEnding? (behind - n) home (bytes.drop n)).bind fun e =>
      if e.hasRoom n then some (n - place, e) else none
  let (shift, e) ← (placesWithin wideSignature bytes place behind).findSome? found
  if e.disk ≠ e.home || e.total < e.here || e.made < e.needed then none
  return ⟨shift, e.start + shift, e.total⟩

def extentAt? (bytes : Bytes) (place : Nat) : Option Extent := do
  let e ← ending? (bytes.drop place)
  let behind := place - 20
  let pointer := if e.isFull && 20 ≤ place then pointer? (bytes.drop behind) else none
  match pointer with
  | none => e.extent? bytes place
  | some (home, start, disks) => wideExtent? bytes behind home start disks

end FunctionJar.Zip
