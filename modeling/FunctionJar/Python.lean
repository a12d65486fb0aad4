import FunctionJar.Definition
import FunctionJar.Source.Bracket
import FunctionJar.Source.Declaration
import FunctionJar.Source.Indentation

namespace FunctionJar.Python

inductive Fault
  | lexical (f : Source.Fault)
  | indentation (f : Source.IndentFault)
  | unbound (name : String)
  deriving DecidableEq, Repr

def Fault.message : Fault → String
  | lexical f => f.message
  | indentation f => f.message
  | unbound name => s!"module does not define '{name}' at top level"

def validate (source name : String) : Except Fault Unit := do
  let code ← (Source.scan .python source.toList).mapError Fault.lexical
  if let some f := Source.indentFault? code then throw (.indentation f)
  if !Source.binds name.toList code then throw (.unbound name)

def root : String := "udf/py"

def entryPath (className : String) : String := root ++ "/" ++ ClassName.slashed className ++ ".py"

def contains (part : List Char) : List Char → Bool
  | [] => part.isEmpty
  | c :: rest => part.isPrefixOf (c :: rest) || contains part rest

def exportName : String := "__all__"

/-- The module for a unit: a header, the source without the blanks at its end, and an export of
the simple name unless the source speaks of one. -/
def wrap (u : SourceUnit) : String :=
  let body := String.ofList (Text.trimEnd u.code.toList)
  let exports :=
    if contains exportName.toList u.code.toList then ""
    else "\n\n" ++ exportName ++ " = [\"" ++ u.simpleName ++ "\"]"
  "# udf " ++ u.className ++ " (task: " ++ u.task ++ ")\n" ++ body ++ exports ++ "\n"

end FunctionJar.Python
