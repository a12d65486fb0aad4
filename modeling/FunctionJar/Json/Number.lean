import FunctionJar.Text.Decimal
import FunctionJar.Text.Shortest

namespace FunctionJar

structure JsonNumber where
  negative : Bool
  integer : List Char
  fraction : List Char
  exponent : Option Int
  deriving DecidableEq, Repr

namespace JsonNumber

def ofNat (n : Nat) : JsonNumber := ⟨false, Nat.toDigits 10 n, [], none⟩

def render (n : JsonNumber) : String :=
  let sign := if n.negative then "-" else ""
  let fraction := if n.fraction = [] then "" else "." ++ String.ofList n.fraction
  let exponent := n.exponent.elim "" fun e => "e" ++ toString e
  sign ++ String.ofList n.integer ++ fraction ++ exponent

def natAbs (n : JsonNumber) : Nat :=
  let digits := Text.natOfDigits (n.integer ++ n.fraction)
  let exponent := n.exponent.getD 0 - n.fraction.length
  if 0 ≤ exponent then digits * Nat.pow 10 exponent.toNat
  else digits / Nat.pow 10 (-exponent).toNat

/-- Whether a number is kept as a whole number: it fits into 64 bits, and is no negative zero. -/
def isWhole (n : JsonNumber) : Bool :=
  n.fraction == [] && n.exponent.isNone &&
    if n.negative then 0 < n.natAbs && n.natAbs ≤ Nat.pow 2 63
    else n.natAbs < Nat.pow 2 64

/-- The digits behind `n` as far as 64 bits have room for them, and those that are left. -/
def gather (n : Nat) : List Char → Nat × List Char
  | [] => (n, [])
  | c :: rest =>
    let more := n * 10 + Text.digitValue c
    if more < Nat.pow 2 64 then gather more rest else (n, c :: rest)

def significand (n : JsonNumber) : Nat × Int :=
  let (whole, missed) := gather 0 n.integer
  let (all, dropped) := gather whole n.fraction
  let read : Int := n.fraction.length - dropped.length
  (all, n.exponent.getD 0 + missed.length - read)

def stride : Nat := 308

def power (n : Nat) : Text.Double := Text.nearest (Nat.pow 10 n) 1

def divided (x : Text.Double) (n : Nat) : Text.Double :=
  if x.mantissa = 0 then x
  else if n ≤ stride then x.over (power n)
  else divided (x.over (power stride)) (n - stride)
termination_by n
decreasing_by simp only [stride] at *; omega

def double (n : JsonNumber) : Text.Double :=
  let (digits, exponent) := n.significand
  let x := Text.nearest digits 1
  if 0 ≤ exponent then x.times (power exponent.toNat) else divided x (-exponent).toNat

def describe (n : JsonNumber) : String :=
  if n.isWhole then s!"integer `{n.render}`"
  else s!"floating point `{Text.floatText n.negative n.double}`"

end JsonNumber

end FunctionJar
