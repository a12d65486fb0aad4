import FunctionJar.Text.Decimal

namespace FunctionJar.Text

structure Double where
  mantissa : Nat
  exponent : Int
  deriving DecidableEq, Repr

structure Scientific where
  digits : Nat
  exponent : Int
  deriving DecidableEq, Repr

def scaled (base num den : Nat) (e : Int) : Nat × Nat :=
  if 0 ≤ e then (num, den * Nat.pow base e.toNat) else (num * Nat.pow base (-e).toNat, den)

def roundEven (num den : Nat) : Nat :=
  let q := num / den
  let r := 2 * (num % den)
  if r < den then q else if den < r then q + 1 else if q % 2 = 0 then q else q + 1

/-- The integer part of the logarithm to the base two of a positive quotient. -/
def log2Quotient (num den : Nat) : Int :=
  let guess : Int := (num.log2 : Int) - den.log2
  let (n, d) := scaled 2 num den guess
  if n < d then guess - 1 else guess

def nearest (num den : Nat) : Double :=
  let e := max (log2Quotient num den - 52) (-1074)
  let (n, d) := scaled 2 num den e
  let m := roundEven n d
  if m = Nat.pow 2 53 then ⟨Nat.pow 2 52, e + 1⟩ else ⟨m, e⟩

def Double.value (x : Double) : Nat × Nat :=
  if 0 ≤ x.exponent then (x.mantissa * Nat.pow 2 x.exponent.toNat, 1)
  else (x.mantissa, Nat.pow 2 (-x.exponent).toNat)

def Double.times (x y : Double) : Double :=
  nearest (x.value.1 * y.value.1) (x.value.2 * y.value.2)

def Double.over (x y : Double) : Double := nearest (x.value.1 * y.value.2) (x.value.2 * y.value.1)

def Scientific.value (s : Scientific) : Nat × Nat :=
  if 0 ≤ s.exponent then (s.digits * Nat.pow 10 s.exponent.toNat, 1)
  else (s.digits, Nat.pow 10 (-s.exponent).toNat)

def Scientific.readsAs (s : Scientific) (x : Double) : Bool :=
  s.digits != 0 && nearest s.value.1 s.value.2 == x

/-- The distance of two quotients over the product of their denominators. -/
def gap (a b : Nat × Nat) : Nat :=
  let l := a.1 * b.2
  let r := b.1 * a.2
  (l - r) + (r - l)

def log10Quotient (num den : Nat) : Int :=
  let guess : Int := ((Nat.toDigits 10 num).length : Int) - (Nat.toDigits 10 den).length
  let (n, d) := scaled 10 num den guess
  if n < d then guess - 1 else guess

def shortestFrom (x : Double) (top : Int) : Nat → Nat → Scientific
  | 0, count => ⟨roundEven (scaled 10 x.value.1 x.value.2 (top - count)).1
      (scaled 10 x.value.1 x.value.2 (top - count)).2, top - count⟩
  | fuel + 1, count =>
    let e := top - count
    let (n, d) := scaled 10 x.value.1 x.value.2 e
    let below : Scientific := ⟨n / d, e⟩
    let above : Scientific := ⟨n / d + 1, e⟩
    match below.readsAs x, above.readsAs x with
    | true, true => ⟨roundEven n d, e⟩
    | true, false => below
    | false, true => above
    | false, false => shortestFrom x top fuel (count + 1)

def stripZeros : Nat → Scientific → Scientific
  | 0, s => s
  | fuel + 1, s =>
    if s.digits ≠ 0 ∧ s.digits % 10 = 0 then stripZeros fuel ⟨s.digits / 10, s.exponent + 1⟩ else s

/-- The shortest decimal that rounds to `x`, without zeros at its end. -/
def shortest (x : Double) : Scientific :=
  stripZeros 20 (shortestFrom x (log10Quotient x.value.1 x.value.2) 17 0)

def scientificText (s : Scientific) : String :=
  let digits := toString s.digits
  let point : Int := digits.length + s.exponent
  if 0 ≤ s.exponent ∧ point ≤ 16 then
    digits ++ "".pushn '0' s.exponent.toNat ++ ".0"
  else if 0 < point ∧ point ≤ 16 then
    String.ofList (digits.toList.take point.toNat) ++ "." ++
      String.ofList (digits.toList.drop point.toNat)
  else if -5 < point ∧ point ≤ 0 then
    "0." ++ "".pushn '0' (-point).toNat ++ digits
  else
    let fraction := String.ofList (digits.toList.drop 1)
    String.ofList (digits.toList.take 1) ++ (if fraction = "" then "" else "." ++ fraction)
      ++ (if 0 < point then "e+" else "e") ++ toString (point - 1)

def floatText (negative : Bool) (x : Double) : String :=
  (if negative then "-" else "") ++ if x.mantissa = 0 then "0.0" else scientificText (shortest x)

end FunctionJar.Text
