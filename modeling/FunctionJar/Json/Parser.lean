import FunctionJar.Json.Value
import FunctionJar.Text.Decimal

namespace FunctionJar.Json

def isGap (c : Char) : Bool := c == ' ' || c == '\n' || c == '\t' || c == '\r'

def skipGap (s : List Char) : List Char := s.dropWhile isGap

def unit16? : List Char → Option (Nat × List Char)
  | a :: b :: c :: d :: rest => do
    let a ← Text.hexValue? a
    let b ← Text.hexValue? b
    let c ← Text.hexValue? c
    let d ← Text.hexValue? d
    return (((a * 16 + b) * 16 + c) * 16 + d, rest)
  | _ => none

def escapedChar? (s : List Char) : Option (Char × List Char) := do
  let (high, rest) ← unit16? s
  if high < 0xD800 ∨ 0xE000 ≤ high then return (Char.ofNat high, rest)
  if 0xDC00 ≤ high then none
  match rest with
  | '\\' :: 'u' :: rest =>
    let (low, rest) ← unit16? rest
    if low < 0xDC00 ∨ 0xE000 ≤ low then none
    return (Char.ofNat (0x10000 + (high - 0xD800) * 1024 + (low - 0xDC00)), rest)
  | _ => none

def shortEscape? : Char → Option Char
  | '"' => some '"'
  | '\\' => some '\\'
  | '/' => some '/'
  | 'b' => some '\x08'
  | 'f' => some '\x0c'
  | 'n' => some '\n'
  | 'r' => some '\r'
  | 't' => some '\t'
  | _ => none

def stringBody (kept : Bool) : Nat → List Char → List Char → Option (String × List Char)
  | 0, _, _ => none
  | fuel + 1, done, s =>
    match s with
    | '"' :: rest => some (String.ofList done.reverse, rest)
    | '\\' :: 'u' :: rest => do
      let (c, rest) ←
        if kept then escapedChar? rest else (unit16? rest).map fun (_, rest) => ('\uFFFD', rest)
      stringBody kept fuel (c :: done) rest
    | '\\' :: e :: rest => do
      let c ← shortEscape? e
      stringBody kept fuel (c :: done) rest
    | c :: rest => if c.toNat < 32 then none else stringBody kept fuel (c :: done) rest
    | [] => none

def exponentPart : List Char → Option (Int × List Char)
  | s =>
    let (negative, s) := match s with
      | '-' :: rest => (true, rest)
      | '+' :: rest => (false, rest)
      | s => (false, s)
    let digits := s.takeWhile Char.isDigit
    if digits = [] then none
    else
      let n : Int := Text.natOfDigits digits
      some (if negative then -n else n, s.dropWhile Char.isDigit)

def numberBody (negative : Bool) (s : List Char) : Option (JsonNumber × List Char) := do
  let digits := s.takeWhile Char.isDigit
  let rest := s.dropWhile Char.isDigit
  if digits = [] ∨ (digits.head? = some '0' ∧ digits.length ≠ 1) then none
  let (fraction, rest) ← match rest with
    | '.' :: after =>
      let fraction := after.takeWhile Char.isDigit
      if fraction = [] then none else some (fraction, after.dropWhile Char.isDigit)
    | rest => some ([], rest)
  let (exponent, rest) ← match rest with
    | 'e' :: after | 'E' :: after => (exponentPart after).map fun (e, rest) => (some e, rest)
    | rest => some (none, rest)
  return (⟨negative, digits, fraction, exponent⟩, rest)

def dropWord (word : List Char) (s : List Char) : Option (List Char) :=
  if word.isPrefixOf s then some (s.drop word.length) else none

mutual

/-- A value, with the members that `wants` names, and of which no text matters unless `kept`. -/
def value (wants : String → Bool) (kept : Bool) : Nat → List Char → Option (Json × List Char)
  | 0, _ => none
  | fuel + 1, s =>
    match skipGap s with
    | 'n' :: rest => (dropWord ['u', 'l', 'l'] rest).map (null, ·)
    | 't' :: rest => (dropWord ['r', 'u', 'e'] rest).map (bool true, ·)
    | 'f' :: rest => (dropWord ['a', 'l', 's', 'e'] rest).map (bool false, ·)
    | '"' :: rest => (stringBody kept (rest.length + 1) [] rest).map fun (t, rest) => (str t, rest)
    | '-' :: rest => (numberBody true rest).map fun (n, rest) => (number n, rest)
    | '[' :: rest =>
      match skipGap rest with
      | ']' :: rest => some (arr [], rest)
      | rest => (items wants kept fuel [] rest).map fun (js, rest) => (arr js, rest)
    | '{' :: rest =>
      match skipGap rest with
      | '}' :: rest => some (obj [], rest)
      | rest => (members wants kept fuel [] rest).map fun (ms, rest) => (obj ms, rest)
    | rest => (numberBody false rest).map fun (n, rest) => (number n, rest)

def items (wants : String → Bool) (kept : Bool) :
    Nat → List Json → List Char → Option (List Json × List Char)
  | 0, _, _ => none
  | fuel + 1, done, s =>
    match value wants kept fuel s with
    | none => none
    | some (j, rest) =>
      match skipGap rest with
      | ',' :: rest => items wants kept fuel (j :: done) rest
      | ']' :: rest => some ((j :: done).reverse, rest)
      | _ => none

def members (wants : String → Bool) (kept : Bool) :
    Nat → List (String × Json) → List Char → Option (List (String × Json) × List Char)
  | 0, _, _ => none
  | fuel + 1, done, s =>
    match skipGap s with
    | '"' :: rest =>
      match stringBody kept (rest.length + 1) [] rest with
      | none => none
      | some (key, rest) =>
        match skipGap rest with
        | ':' :: rest =>
          match value wants (kept && wants key) fuel rest with
          | none => none
          | some (j, rest) =>
            match skipGap rest with
            | ',' :: rest => members wants kept fuel ((key, j) :: done) rest
            | '}' :: rest => some (((key, j) :: done).reverse, rest)
            | _ => none
        | _ => none
    | _ => none

end

/-- The value of a text of which only the members that `wants` names matter. -/
def parseFor? (wants : String → Bool) (s : String) : Option Json := do
  let chars := s.toList
  let (j, rest) ← value wants true (2 * chars.length + 2) chars
  if skipGap rest = [] then some j else none

def parse? (s : String) : Option Json := parseFor? (fun _ => true) s

end FunctionJar.Json
