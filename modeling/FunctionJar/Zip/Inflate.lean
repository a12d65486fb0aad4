import FunctionJar.Text.Utf8
import FunctionJar.Total

namespace FunctionJar.Inflate

open Text (Bytes)

abbrev Bits := List Bool

def bitsOf (bytes : Bytes) : Bits :=
  bytes.flatMap fun b => (List.range 8).map fun n => b.toNat.testBit n

def number? : Nat → Bits → Option (Nat × Bits)
  | 0, bits => some (0, bits)
  | _ + 1, [] => none
  | n + 1, b :: rest => (number? n rest).map fun (high, rest) => (b.toNat + 2 * high, rest)

/-- A code in which shorter codes come first, and codes of one length follow the symbols. -/
structure Code where
  counts : List Nat
  symbols : Array Nat

namespace Code

def longest : Nat := 15

def symbolsOfLength (lengths : List Nat) (n : Nat) : List Nat :=
  (lengths.zipIdx.filter fun s => s.1 == n).map (·.2)

def ofLengths (lengths : List Nat) : Code :=
  let groups := (List.range longest).map fun n => symbolsOfLength lengths (n + 1)
  ⟨groups.map List.length, groups.flatten.toArray⟩

def isComplete (c : Code) : Bool :=
  total (fun s => s.1 * Nat.pow 2 (longest - (s.2 + 1))) c.counts.zipIdx == Nat.pow 2 longest

/-- There is no code, or only one, of one bit. -/
def isMeagre (c : Code) : Bool := c.symbols.size == 0 || c.counts.headD 0 == 1 && c.symbols.size == 1

def find? (symbols : Array Nat) : List Nat → Nat → Nat → Nat → Bits → Option (Nat × Bits)
  | [], _, _, _, _ | _ :: _, _, _, _, [] => none
  | count :: counts, code, first, index, b :: rest =>
    let code := 2 * code + b.toNat
    let first := 2 * first
    if code < first + count then (symbols[index + (code - first)]?).map (·, rest)
    else find? symbols counts code (first + count) (index + count) rest

def symbol? (c : Code) (bits : Bits) : Option (Nat × Bits) := find? c.symbols c.counts 0 0 0 bits

end Code

def lengthTable : List (Nat × Nat) :=
  [(3, 0), (4, 0), (5, 0), (6, 0), (7, 0), (8, 0), (9, 0), (10, 0), (11, 1), (13, 1), (15, 1),
    (17, 1), (19, 2), (23, 2), (27, 2), (31, 2), (35, 3), (43, 3), (51, 3), (59, 3), (67, 4),
    (83, 4), (99, 4), (115, 4), (131, 5), (163, 5), (195, 5), (227, 5), (258, 0)]

def distanceTable : List (Nat × Nat) :=
  [(1, 0), (2, 0), (3, 0), (4, 0), (5, 1), (7, 1), (9, 2), (13, 2), (17, 3), (25, 3), (33, 4),
    (49, 4), (65, 5), (97, 5), (129, 6), (193, 6), (257, 7), (385, 7), (513, 8), (769, 8),
    (1025, 9), (1537, 9), (2049, 10), (3073, 10), (4097, 11), (6145, 11), (8193, 12), (12289, 12),
    (16385, 13), (24577, 13)]

def valueIn? (table : List (Nat × Nat)) (symbol : Nat) (bits : Bits) : Option (Nat × Bits) := do
  let (least, extra) ← table[symbol]?
  let (more, rest) ← number? extra bits
  return (least + more, rest)

def back (distance : Nat) (out : Array UInt8) : UInt8 :=
  if distance ≤ out.size then out.getD (out.size - distance) 0 else 0

def copy (distance : Nat) : Nat → Array UInt8 → Array UInt8
  | 0, out => out
  | n + 1, out => copy distance n (out.push (back distance out))

structure Codes where
  literal : Code
  distance : Code

def fixed : Codes where
  literal := .ofLengths (List.replicate 144 8 ++ List.replicate 112 9 ++ List.replicate 24 7 ++
    List.replicate 8 8)
  distance := .ofLengths (List.replicate 30 5)

/-- A length and a distance, of which the symbol of the length has been read. -/
def reference? (codes : Codes) (symbol : Nat) (bits : Bits) : Option ((Nat × Nat) × Bits) := do
  let (length, bits) ← valueIn? lengthTable symbol bits
  let (symbol, bits) ← codes.distance.symbol? bits
  let (distance, bits) ← valueIn? distanceTable symbol bits
  return ((length, distance), bits)

def endOfBlock : Nat := 256

def symbols? (codes : Codes) : Nat → Array UInt8 → Bits → Option (Array UInt8 × Bits)
  | 0, _, _ => none
  | fuel + 1, out, bits =>
    match codes.literal.symbol? bits with
    | none => none
    | some (s, bits) =>
      if s < endOfBlock then symbols? codes fuel (out.push (UInt8.ofNat s)) bits
      else if s = endOfBlock then some (out, bits)
      else match reference? codes (s - endOfBlock - 1) bits with
        | none => none
        | some ((length, distance), bits) => symbols? codes fuel (copy distance length out) bits

def lengthOrder : List Nat := [16, 17, 18, 0, 8, 7, 9, 6, 10, 5, 11, 4, 12, 3, 13, 2, 14, 1, 15]

def numbers? (width : Nat) : Nat → Bits → Option (List Nat × Bits)
  | 0, bits => some ([], bits)
  | n + 1, bits => do
    let (first, bits) ← number? width bits
    let (rest, bits) ← numbers? width n bits
    return (first :: rest, bits)

def lengthRun? (symbol : Nat) (lengths : List Nat) (bits : Bits) : Option (List Nat × Bits) := do
  let run (value extra least : Nat) : Option (List Nat × Bits) := do
    let (more, bits) ← number? extra bits
    return (List.replicate (least + more) value, bits)
  match symbol with
  | 16 => run (← lengths.getLast?) 2 3
  | 17 => run 0 3 3
  | 18 => run 0 7 11
  | n => return ([n], bits)

def lengths? (code : Code) (wanted : Nat) : Nat → List Nat → Bits → Option (List Nat × Bits)
  | 0, _, _ => none
  | fuel + 1, done, bits =>
    if wanted < done.length then none
    else if wanted = done.length then some (done, bits)
    else do
      let (symbol, bits) ← code.symbol? bits
      let (run, bits) ← lengthRun? symbol done bits
      lengths? code wanted fuel (done ++ run) bits

/-- A code for the symbols of a block, which may lack what the block does not use. -/
def codeOf? (lengths : List Nat) : Option Code :=
  let code := Code.ofLengths lengths
  if code.isComplete || code.isMeagre then some code else none

def ownCodes? (bits : Bits) : Option (Codes × Bits) := do
  let (literals, bits) ← number? 5 bits
  let (distances, bits) ← number? 5 bits
  let (given, bits) ← number? 4 bits
  let literals := literals + 257
  let distances := distances + 1
  if 286 < literals || 30 < distances then none
  let (short, bits) ← numbers? 3 (given + 4) bits
  let placed := lengthOrder.zip short
  let code := Code.ofLengths ((List.range 19).map fun s => (placed.lookup s).getD 0)
  if !code.isComplete then none
  let wanted := literals + distances
  let (all, bits) ← lengths? code wanted (wanted + 1) [] bits
  return (⟨← codeOf? (all.take literals), ← codeOf? (all.drop literals)⟩, bits)

def plainBytes? : Nat → Array UInt8 → Bits → Option (Array UInt8 × Bits)
  | 0, out, bits => some (out, bits)
  | n + 1, out, bits =>
    match number? 8 bits with
    | none => none
    | some (b, bits) => plainBytes? n (out.push (UInt8.ofNat b)) bits

/-- A block of bytes as they are. It begins at a whole byte, with their number given twice. -/
def plain? (out : Array UInt8) (bits : Bits) : Option (Array UInt8 × Bits) := do
  let (length, bits) ← number? 16 (bits.drop (bits.length % 8))
  let (inverse, bits) ← number? 16 bits
  if length + inverse = 65535 then plainBytes? length out bits else none

def block? (kind : Nat) (out : Array UInt8) (bits : Bits) : Option (Array UInt8 × Bits) :=
  match kind with
  | 0 => plain? out bits
  | 1 => symbols? fixed (bits.length + 1) out bits
  | 2 => (ownCodes? bits).bind fun (codes, bits) => symbols? codes (bits.length + 1) out bits
  | _ => none

def blocks? : Nat → Array UInt8 → Bits → Option (Array UInt8)
  | 0, _, _ => none
  | fuel + 1, out, bits => do
    let (last, bits) ← number? 1 bits
    let (kind, bits) ← number? 2 bits
    let (out, bits) ← block? kind out bits
    if last = 1 then some out else blocks? fuel out bits

def inflate? (bytes : Bytes) : Option Bytes :=
  let bits := bitsOf bytes
  (blocks? (bits.length + 1) #[] bits).map Array.toList

end FunctionJar.Inflate
