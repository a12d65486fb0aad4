import FunctionJar.Text.Decimal

namespace FunctionJar

def uniqueWidth : Nat := 6

def unique (n : Nat) : String :=
  Text.padLeft uniqueWidth '0' (String.ofList (Nat.toDigits 16 n))

def freshName (start ending : String) (taken : List String) : String :=
  let names := (List.range (taken.length + 1)).map fun n => start ++ unique n ++ ending
  (names.find? fun n => !taken.contains n).getD (start ++ ending)

end FunctionJar
