import FunctionJar.Text.Blank

namespace FunctionJar

inductive Dialect
  | java
  | scala
  | python
  | sql
  deriving DecidableEq, Repr

namespace Dialect

def name : Dialect → String
  | java => "java"
  | scala => "scala"
  | python => "python"
  | sql => "sql"

def all : List Dialect := [java, scala, python, sql]

theorem name_injective {d e : Dialect} (h : d.name = e.name) : d = e := by
  cases d <;> cases e <;> first | rfl | exact absurd h (by decide)

def ofName? (s : String) : Option Dialect := all.find? fun d => d.name == s

theorem ofName?_name (d : Dialect) : ofName? d.name = some d := by cases d <;> rfl

/-- A task's own spelling of its dialect: blanks around it and the case of its letters are free,
and one of the dialects has a second name. Otherwise the spelling comes back in lower case. -/
def ofTag (tag : String) : Except String Dialect :=
  let key := Text.lower (Text.trimText tag)
  match ofName? key with
  | some d => .ok d
  | none => if key = "flinksql" then .ok sql else .error key

end Dialect

end FunctionJar
