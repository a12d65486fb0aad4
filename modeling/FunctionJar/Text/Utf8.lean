namespace FunctionJar.Text

abbrev Bytes := List UInt8

def utf8 (s : String) : Bytes := s.toList.flatMap String.utf8EncodeChar

def leadByte (b : UInt8) : Option (UInt8 × UInt8 × Nat) :=
  if 0xC2 ≤ b && b ≤ 0xDF then some (0x80, 0xBF, 1)
  else if b == 0xE0 then some (0xA0, 0xBF, 2)
  else if b == 0xED then some (0x80, 0x9F, 2)
  else if 0xE1 ≤ b && b ≤ 0xEF then some (0x80, 0xBF, 2)
  else if b == 0xF0 then some (0x90, 0xBF, 3)
  else if b == 0xF4 then some (0x80, 0x8F, 3)
  else if 0xF1 ≤ b && b ≤ 0xF3 then some (0x80, 0xBF, 3)
  else none

/-- Reads `count` further bytes into `code`, the first of them within `low` to `high`. The number
is how many bytes were taken, also when a byte is missing or out of place. -/
def tailBytes (low high : UInt8) (code : Nat) : Nat → Bytes → Option Nat × Nat
  | 0, _ => (some code, 0)
  | _ + 1, [] => (none, 0)
  | count + 1, b :: rest =>
    if low ≤ b && b ≤ high then
      let (found, taken) := tailBytes 0x80 0xBF (code * 64 + (b.toNat - 0x80)) count rest
      (found, taken + 1)
    else (none, 0)

/-- The character that begins with `b`, if it is well formed, and how many bytes of `rest` it or
its ill-formed part takes. -/
def decodeChar (b : UInt8) (rest : Bytes) : Option Char × Nat :=
  if b < 0x80 then (some (Char.ofNat b.toNat), 0)
  else match leadByte b with
    | none => (none, 0)
    | some (low, high, count) =>
      let (code, taken) := tailBytes low high (b.toNat % Nat.pow 2 (6 - count)) count rest
      (code.map Char.ofNat, taken)

def decodeOnto (done : List (Option Char)) : Nat → Bytes → List (Option Char)
  | _, [] => done.reverse
  | skip + 1, _ :: rest => decodeOnto done skip rest
  | 0, b :: rest =>
    let (c, taken) := decodeChar b rest
    decodeOnto (c :: done) taken rest

def decode (bytes : Bytes) : List (Option Char) := decodeOnto [] 0 bytes

def decode? (bytes : Bytes) : Option String :=
  let chars := decode bytes
  if chars.all Option.isSome then some (String.ofList (chars.filterMap id)) else none

def decodeLossy (bytes : Bytes) : List Char :=
  (decode bytes).map (·.getD '\uFFFD')

def hexDigit (n : Nat) : Char := "0123456789abcdef".toList.getD n '0'

def hex (bytes : Bytes) : String :=
  String.ofList (bytes.flatMap fun b => [hexDigit (b.toNat / 16), hexDigit (b.toNat % 16)])

def hexValue? (c : Char) : Option Nat :=
  if '0' ≤ c && c ≤ '9' then some (c.toNat - 48)
  else if 'a' ≤ c && c ≤ 'f' then some (c.toNat - 87)
  else if 'A' ≤ c && c ≤ 'F' then some (c.toNat - 55)
  else none

def unhex : List Char → Bytes
  | high :: low :: rest =>
    UInt8.ofNat ((hexValue? high).getD 0 * 16 + (hexValue? low).getD 0) :: unhex rest
  | _ => []

end FunctionJar.Text
