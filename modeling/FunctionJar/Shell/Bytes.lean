import FunctionJar.Text.Utf8

namespace FunctionJar.Shell

open Text (Bytes)

def byteBase : Nat := 0x10FF00

/-- The private characters that stand for bytes which are no part of a well-formed one. -/
def isByte (c : Char) : Bool := byteBase + 128 ≤ c.toNat

def textOnto (done : List Char) : Nat → Bytes → List Char
  | _, [] => done.reverse
  | skip + 1, _ :: rest => textOnto done skip rest
  | 0, b :: rest =>
    match Text.decodeChar b rest with
    | (some c, taken) =>
      -- such a character is its bytes, or it would come back as another one
      if isByte c then textOnto (Char.ofNat (byteBase + b.toNat) :: done) 0 rest
      else textOnto (c :: done) taken rest
    | (none, _) => textOnto (Char.ofNat (byteBase + b.toNat) :: done) 0 rest

def textOf (bytes : Bytes) : List Char := textOnto [] 0 bytes

def bytesOfChar (c : Char) : Bytes :=
  if isByte c then [UInt8.ofNat (c.toNat - byteBase)] else String.utf8EncodeChar c

def bytesOf (s : String) : Bytes := s.toList.flatMap bytesOfChar

end FunctionJar.Shell
