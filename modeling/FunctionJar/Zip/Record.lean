import FunctionJar.Text.Utf8
import FunctionJar.Total

namespace FunctionJar.Zip

open Text (Bytes)

/-- In the place of a number that four bytes have no room for. -/
def wide : Nat := 0xFFFFFFFF

def wideCount : Nat := 0xFFFF

def little : Nat → Nat → Bytes
  | 0, _ => []
  | width + 1, n => UInt8.ofNat n :: little width (n / 256)

def number : Bytes → Nat
  | [] => 0
  | b :: rest => b.toNat + 256 * number rest

def record (fields : List (Nat × Nat)) : Bytes := fields.flatMap fun f => little f.1 f.2

/-- The first so many bytes and the rest, if there are as many. -/
def take? (n : Nat) (bytes : Bytes) : Option (Bytes × Bytes) :=
  let head := bytes.take n
  if head.length = n then some (head, bytes.drop n) else none

def fields? : List Nat → Bytes → Option (List Nat × Bytes)
  | [], bytes => some ([], bytes)
  | width :: widths, bytes =>
    match take? width bytes with
    | none => none
    | some (head, rest) =>
      match fields? widths rest with
      | none => none
      | some (ns, rest) => some (number head :: ns, rest)

end FunctionJar.Zip
