namespace FunctionJar.Text

def digitValue (c : Char) : Nat := c.toNat - 48

def natOfDigits (digits : List Char) : Nat :=
  digits.foldl (fun n c => n * 10 + digitValue c) 0

def digits? (s : List Char) : Option Nat :=
  if s ≠ [] ∧ s.all Char.isDigit then some (natOfDigits s) else none

def dropPlus : List Char → List Char
  | '+' :: rest => rest
  | s => s

/-- A whole number below `2 ^ 64`, after an optional plus sign. -/
def count? (s : String) : Option Nat :=
  (digits? (dropPlus s.toList)).filter (· < Nat.pow 2 64)

def padLeft (width : Nat) (fill : Char) (s : String) : String :=
  String.ofList (List.replicate (width - s.length) fill) ++ s

end FunctionJar.Text
