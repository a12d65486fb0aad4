import FunctionJar.Text.Blank

namespace FunctionJar.Source

inductive IndentFault
  | unexpected (line : Nat)
  | mixed (line : Nat)
  deriving DecidableEq, Repr

def IndentFault.message : IndentFault → String
  | unexpected line => s!"line {line}: unexpected indent"
  | mixed line => s!"line {line}: inconsistent use of tabs and spaces in indentation"

def indent (line : List Char) : List Char := line.takeWhile fun c => c == ' ' || c == '\t'

/-- What the lines of code so far were indented with; `none` before the first of them. -/
structure Indented where
  tabs : Bool
  spaces : Bool
  deriving DecidableEq, Repr

def indentFaultFrom (number : Nat) (seen : Option Indented) :
    List (List Char) → Option IndentFault
  | [] => none
  | line :: rest =>
    if line.all Text.isBlank then indentFaultFrom (number + 1) seen rest
    else if seen.isNone && !(indent line).isEmpty then some (.unexpected number)
    else
      let before := seen.getD ⟨false, false⟩
      let now : Indented := ⟨before.tabs || (indent line).contains '\t',
        before.spaces || (indent line).contains ' '⟩
      if now.tabs && now.spaces then some (.mixed number)
      else indentFaultFrom (number + 1) (some now) rest

def indentFault? (s : List Char) : Option IndentFault := indentFaultFrom 1 none (Text.lines s)

end FunctionJar.Source
