import FunctionJar.Text.Decimal
import FunctionJar.Text.Utf8

namespace FunctionJar.Toml

def digitsAfter (ok : Char → Bool) : List Char → List Char × List Char
  | [] => ([], [])
  | '_' :: d :: rest =>
    if ok d then
      let (digits, rest) := digitsAfter ok rest
      (d :: digits, rest)
    else ([], '_' :: d :: rest)
  | c :: rest =>
    if ok c then
      let (digits, rest) := digitsAfter ok rest
      (c :: digits, rest)
    else ([], c :: rest)

def digits (ok : Char → Bool) : List Char → Option (List Char × List Char)
  | [] => none
  | c :: rest => if ok c then some (digitsAfter ok (c :: rest)) else none

def sign : List Char → Bool × List Char
  | '+' :: rest => (false, rest)
  | '-' :: rest => (true, rest)
  | s => (false, s)

/-- Digits of which the first is zero only if it is alone. -/
def wholeDigits : List Char → Option (List Char × List Char)
  | '0' :: rest => some (['0'], rest)
  | s => digits Char.isDigit s

def valueIn (base : Nat) (ds : List Char) : Nat :=
  ds.foldl (fun n c => n * base + (Text.hexValue? c).getD 0) 0

def inRange (n : Int) : Option Int := if -Int.pow 2 63 ≤ n ∧ n < Int.pow 2 63 then some n else none

def based (base : Nat) (s : List Char) : Option (Int × List Char) := do
  let ok (c : Char) : Bool := match Text.hexValue? c with
    | some v => v < base
    | none => false
  let (ds, rest) ← digits ok s
  return (← inRange (valueIn base ds), rest)

def integer? : List Char → Option (Int × List Char)
  | '0' :: 'x' :: rest => based 16 rest
  | '0' :: 'o' :: rest => based 8 rest
  | '0' :: 'b' :: rest => based 2 rest
  | s => do
    let (negative, s) := sign s
    let (ds, rest) ← wholeDigits s
    let n : Int := valueIn 10 ds
    return (← inRange (if negative then -n else n), rest)

def tooGreat : Nat := Nat.pow 2 1024 - Nat.pow 2 970

/-- `ds` as a number, times ten to the power `e`, is beyond every double. -/
def isTooGreat (ds : List Char) (e : Int) : Bool :=
  let n := valueIn 10 ds
  let size := (toString n).length + e
  if n = 0 || size < 300 then false
  else if 400 < size then true
  else if 0 ≤ e then tooGreat ≤ n * Nat.pow 10 e.toNat
  else tooGreat * Nat.pow 10 (-e).toNat ≤ n

def fraction : List Char → Option (List Char × List Char)
  | '.' :: rest => digits Char.isDigit rest
  | _ => none

def power (s : List Char) : Option (Int × List Char) := do
  let rest ← match s with
    | 'e' :: rest | 'E' :: rest => some rest
    | _ => none
  let (negative, rest) := sign rest
  let (ds, rest) ← digits Char.isDigit rest
  let n : Int := valueIn 10 ds
  return (if negative then -n else n, rest)

def word (w s : List Char) : Option (List Char) :=
  if w.isPrefixOf s then some (s.drop w.length) else none

/-- A number with a fraction, a power of ten or both, or one that is not finite. -/
def fractional? (s : List Char) : Option (List Char) := do
  let (negative, s) := sign s
  match word ['i', 'n', 'f'] s, word ['n', 'a', 'n'] s with
  | some rest, _ | none, some rest => return rest
  | none, none =>
    let (ds, rest) ← wholeDigits s
    let (after, rest, e) ← match fraction rest with
      | some (fs, rest) => match power rest with
        | some (e, rest) => some (fs, rest, e)
        | none => some (fs, rest, 0)
      | none => (power rest).map fun (e, rest) => ([], rest, e)
    if !negative && isTooGreat (ds ++ after) (e - after.length) then none else return rest

def numberIn (count low high : Nat) (s : List Char) : Option (Nat × List Char) :=
  let ds := s.take count
  if ds.length = count && ds.all Char.isDigit then
    let n := valueIn 10 ds
    if low ≤ n && n ≤ high then some (n, s.drop count) else none
  else none

def daysOf (year month : Nat) : Nat :=
  if month = 2 then
    if year % 4 = 0 ∧ (year % 100 ≠ 0 ∨ year % 400 = 0) then 29 else 28
  else if month = 4 ∨ month = 6 ∨ month = 9 ∨ month = 11 then 30
  else 31

def date (s : List Char) : Option (List Char) := do
  let (year, s) ← numberIn 4 0 9999 s
  let (month, s) ← numberIn 2 1 12 (← word ['-'] s)
  let (_, s) ← numberIn 2 1 (daysOf year month) (← word ['-'] s)
  return s

def time (s : List Char) : Option (List Char) := do
  let (_, s) ← numberIn 2 0 23 s
  let (_, s) ← numberIn 2 0 59 (← word [':'] s)
  let (_, s) ← numberIn 2 0 60 (← word [':'] s)
  match s with
  | '.' :: rest =>
    let ds := rest.takeWhile Char.isDigit
    return if ds = [] then s else rest.drop ds.length
  | s => return s

def offset (s : List Char) : Option (List Char) :=
  match s with
  | 'Z' :: rest | 'z' :: rest => some rest
  | '+' :: rest | '-' :: rest => do
    let (_, rest) ← numberIn 2 0 23 rest
    let (_, rest) ← numberIn 2 0 59 (← word [':'] rest)
    return rest
  | s => some s

def moment? (s : List Char) : Option (List Char) :=
  match date s with
  | none => time s
  | some rest =>
    match rest with
    | 'T' :: after | 't' :: after | ' ' :: after =>
      match time after with
      | some after => offset after
      | none => some rest
    | rest => some rest

end FunctionJar.Toml
