import FunctionJar.Zip.CodePage
import FunctionJar.Zip.Crc32
import FunctionJar.Zip.Record

namespace FunctionJar.Zip

open Text (Bytes)

structure Item where
  label : Bytes
  name : String
  comment : String
  flags : Nat
  method : Nat
  crc : Nat
  packed : Nat
  size : Nat
  start : Nat
  isSealed : Bool
  deriving DecidableEq, Repr

def Item.isEncrypted (i : Item) : Bool := i.flags.testBit 0 || i.isSealed

def textOf (flags : Nat) (bytes : Bytes) : String :=
  if flags.testBit 11 then String.ofList (Text.decodeLossy bytes) else codePageText bytes

/-- Reading stops with the item as far as it came, or with none that could be accepted. -/
def reading (item : Item) (widths : List Nat) (bytes : Bytes) :
    Except (Option Item) (List Nat × Bytes) :=
  match fields? widths bytes with
  | some found => .ok found
  | none => .error (some item)

def skipping (item : Item) (n : Nat) (bytes : Bytes) : Except (Option Item) (Bytes × Bytes) :=
  match take? n bytes with
  | some found => .ok found
  | none => .error (some item)

def require (condition : Bool) : Except (Option Item) Unit :=
  if condition then .ok () else .error none

def wideNumber (item : Item) (isGiven : Bool) (old : Nat) (bytes : Bytes) :
    Except (Option Item) (Nat × Bytes) := do
  if !isGiven then return (old, bytes)
  let (found, rest) ← reading item [8] bytes
  return (found.headD old, rest)

def amendSizes (length : Nat) (item : Item) (bytes : Bytes) :
    Except (Option Item) (Item × Bytes) := do
  let all := decide (24 ≤ length)
  let (size, rest) ← wideNumber item (all || item.size == wide) item.size bytes
  let item := { item with size }
  let (packed, rest) ← wideNumber item (all || item.packed == wide) item.packed rest
  let item := { item with packed }
  let (start, rest) ← wideNumber item (all || item.start == wide) item.start rest
  let item := { item with start }
  let read := bytes.length - rest.length
  require (read ≤ length)
  let (_, rest) ← skipping item (length - read) rest
  return (item, rest)

def checkTimes (length : Nat) (item : Item) (bytes : Bytes) :
    Except (Option Item) (Item × Bytes) := do
  require (length == 32)
  let (tag, rest) ← reading item [4, 2] bytes
  require (tag.getLast? == some 1)
  let (size, rest) ← reading item [2] rest
  require (size == [24])
  let (_, rest) ← skipping item 24 rest
  return (item, rest)

def checkStamps (length : Nat) (item : Item) (bytes : Bytes) :
    Except (Option Item) (Item × Bytes) := do
  let (flags, rest) ← reading item [1] bytes
  let isSet (n : Nat) : Bool := (flags.headD 0).testBit n
  let alone := length == 5
  require (alone || length == 1 + 4 * (List.range 8).countP isSet)
  let times := if alone then 1 else (List.range 3).countP isSet
  let (_, rest) ← skipping item (4 * times) rest
  return (item, rest)

/-- Text in UTF-8 in the place of other text, whose checksum goes before it. -/
def amendedText (length : Nat) (item : Item) (old bytes : Bytes) :
    Except (Option Item) (Bytes × String × Bytes) := do
  let (found, rest) ← reading item [1, 4] bytes
  require (5 ≤ length)
  let (content, rest) ← skipping item (length - 5) rest
  require (found.getLast? == some (Crc32.checksum old).toNat)
  match Text.decode? content with
  | some text => return (content, text, rest)
  | none => throw none

def amendSeal (length : Nat) (item : Item) (bytes : Bytes) :
    Except (Option Item) (Item × Bytes) := do
  require (length == 7)
  let (found, rest) ← reading item [2, 2, 1, 2] bytes
  match found with
  | [version, maker, strength, method] =>
    require (maker == 0x4541 && (version == 1 || version == 2) && 1 ≤ strength && strength ≤ 3)
    return ({ item with method, isSealed := true }, rest)
  | _ => throw none

def amend (kind length : Nat) (item : Item) (bytes : Bytes) :
    Except (Option Item) (Item × Bytes) := do
  match kind with
  | 0x0001 => amendSizes length item bytes
  | 0x000a => checkTimes length item bytes
  | 0x5455 => checkStamps length item bytes
  | 0x6375 =>
    let (_, comment, rest) ← amendedText length item (Text.utf8 item.comment) bytes
    return ({ item with comment }, rest)
  | 0x7075 =>
    let (label, name, rest) ← amendedText length item item.label bytes
    return ({ item with label, name }, rest)
  | 0x9901 => amendSeal length item bytes
  | _ =>
    let (_, rest) ← skipping item length bytes
    return (item, rest)

def amended? : Nat → Bytes → Item → Option Item
  | 0, _, item | _, [], item => some item
  | fuel + 1, bytes, item =>
    let step : Except (Option Item) (Item × Bytes) := do
      let (header, rest) ← reading item [2, 2] bytes
      amend (header.headD 0) (header.getLastD 0) item rest
    match step with
    | .error stop => stop
    | .ok (item, rest) => amended? fuel rest item

def sealedMethod : Nat := 99

def Item.amended? (item : Item) (extra : Bytes) : Option Item := do
  let item ← Zip.amended? extra.length extra item
  if item.method = sealedMethod && !item.isSealed then none else some item

end FunctionJar.Zip
