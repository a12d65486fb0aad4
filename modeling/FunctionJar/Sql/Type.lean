import FunctionJar.Java.Expr
import FunctionJar.Text.Blank

namespace FunctionJar.Sql

inductive SqlType
  | int
  | bigint
  | double
  | float
  | boolean
  | string
  deriving DecidableEq, Repr

namespace SqlType

def name : SqlType → String
  | int => "INT"
  | bigint => "BIGINT"
  | double => "DOUBLE"
  | float => "FLOAT"
  | boolean => "BOOLEAN"
  | string => "STRING"

/-- The type with a name in any letter case. Two types have a second name. -/
def ofName? (s : String) : Option SqlType :=
  match Text.upper s with
  | "INT" | "INTEGER" => some int
  | "BIGINT" => some bigint
  | "DOUBLE" => some double
  | "FLOAT" => some float
  | "BOOLEAN" => some boolean
  | "STRING" | "VARCHAR" => some string
  | _ => none

def prim? : SqlType → Option Java.Prim
  | int => some .int
  | bigint => some .long
  | float => some .float
  | double => some .double
  | boolean | string => none

def wrapper : SqlType → String
  | int => "Integer"
  | bigint => "Long"
  | double => "Double"
  | float => "Float"
  | boolean => "Boolean"
  | string => "String"

def ofPrim : Java.Prim → SqlType
  | .int => int
  | .long => bigint
  | .float => float
  | .double => double

theorem prim?_ofPrim (p : Java.Prim) : (ofPrim p).prim? = some p := by cases p <;> rfl

end SqlType

end FunctionJar.Sql
