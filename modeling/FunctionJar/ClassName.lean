import FunctionJar.Text.Blank

namespace FunctionJar.ClassName

def reserved : List String :=
  ["abstract", "assert", "boolean", "break", "byte", "case", "catch", "char", "class", "const",
    "continue", "default", "do", "double", "else", "enum", "extends", "final", "finally",
    "float", "for", "goto", "if", "implements", "import", "instanceof", "int", "interface",
    "long", "native", "new", "package", "private", "protected", "public", "return", "short",
    "static", "strictfp", "super", "switch", "synchronized", "this", "throw", "throws",
    "transient", "try", "void", "volatile", "while", "true", "false", "null", "_"]

def isIdentStart (c : Char) : Bool := c.isAlpha || c == '_' || c == '$'

def isIdentRest (c : Char) : Bool := c.isAlphanum || c == '_' || c == '$'

def isIdentifier : List Char → Bool
  | [] => false
  | c :: rest => isIdentStart c && rest.all isIdentRest

inductive Fault
  | empty
  | emptySegment (name : String)
  | notIdentifier (name segment : String)
  | reservedWord (name segment : String)
  deriving DecidableEq, Repr

def Fault.message : Fault → String
  | .empty => "class name is empty"
  | .emptySegment name => s!"class name '{name}' has an empty segment"
  | .notIdentifier name segment => s!"class name '{name}': '{segment}' is not a valid identifier"
  | .reservedWord name segment => s!"class name '{name}': '{segment}' is a reserved word"

def segments (name : String) : List String :=
  (Text.splitAt '.' name.toList).map String.ofList

def segmentFault? (name segment : String) : Option Fault :=
  if segment = "" then some (.emptySegment name)
  else if !isIdentifier segment.toList then some (.notIdentifier name segment)
  else if segment ∈ reserved then some (.reservedWord name segment)
  else none

def fault? (name : String) : Option Fault :=
  if name = "" then some .empty else (segments name).findSome? (segmentFault? name)

def check (name : String) : Except Fault Unit :=
  match fault? name with
  | some f => .error f
  | none => .ok ()

def simple (name : String) : String := (segments name).getLastD name

/-- Everything before the last segment, if there is more than one. -/
def package (name : String) : Option String :=
  match (segments name).dropLast with
  | [] => none
  | parents => some (Text.join "." parents)

/-- The name as a path, one folder for each segment before the last. -/
def slashed (name : String) : String := Text.join "/" (segments name)

end FunctionJar.ClassName
