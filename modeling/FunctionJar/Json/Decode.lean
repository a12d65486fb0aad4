import FunctionJar.Definition
import FunctionJar.Json.Value
import FunctionJar.Text.Quoted

namespace FunctionJar

inductive DecodeError
  | wrongType (found : Json) (expected : String)
  | wrongLength (found : Nat) (expected : String)
  | missingField (name : String)
  | duplicateField (name : String)
  | unknownVariant (found : String) (known : List String)
  | notSingleKey

namespace Json

def describe : Json → String
  | null => "null"
  | bool b => s!"boolean `{b}`"
  | number n => n.describe
  | str s => s!"string {Text.quoted s}"
  | arr _ => "sequence"
  | obj _ => "map"

/-- The members of an object by key, the last of several with one key. -/
def byKey (members : List (String × Json)) : List (String × Json) :=
  let keys := (members.map (·.1)).eraseDups.mergeSort (· ≤ ·)
  keys.filterMap fun key => (members.reverse.find? fun m => m.1 == key)

mutual

def canonical : Json → Json
  | arr items => arr (canonicalItems items)
  | obj members => obj (byKey (canonicalMembers members))
  | j => j

def canonicalItems : List Json → List Json
  | [] => []
  | j :: rest => canonical j :: canonicalItems rest

def canonicalMembers : List (String × Json) → List (String × Json)
  | [] => []
  | (key, j) :: rest => (key, canonical j) :: canonicalMembers rest

end

def text? : Json → Except DecodeError String
  | str s => .ok s
  | j => .error (.wrongType j "a string")

/-- One of `known`: its bare name, or an object with that name as its one key over null. -/
def variant (known : List String) (j : Json) : Except DecodeError String :=
  let pick (s : String) : Except DecodeError String :=
    if s ∈ known then .ok s else .error (.unknownVariant s known)
  match j with
  | str s => pick s
  | obj [(key, content)] => do
    let s ← pick key
    match content with
    | null => return s
    | j => throw (.wrongType j "unit")
  | obj _ => .error .notSingleKey
  | j => .error (.wrongType j "string or map")

end Json

namespace DecodeError

def message : DecodeError → String
  | wrongType found expected => s!"invalid type: {found.describe}, expected {expected}"
  | wrongLength found expected => s!"invalid length {found}, expected {expected}"
  | missingField name => s!"missing field `{name}`"
  | duplicateField name => s!"duplicate field `{name}`"
  | unknownVariant found known =>
    let names := Text.join ", " (known.map fun s => s!"`{s}`")
    s!"unknown variant `{found}`, expected one of {names}"
  | notSingleKey => "invalid value: map, expected map with a single key"

end DecodeError

namespace Definition

structure Fields where
  task : Option String
  code : Option String
  className : Option String
  tag : Option String

def keys : List String := ["name", "code", "className", "dialect"]

namespace Fields

def fill (key : String) (old : Option String) (j : Json) : Except DecodeError (Option String) :=
  match old with
  | some _ => .error (.duplicateField key)
  | none => some <$> j.text?

def add (f : Fields) : String × Json → Except DecodeError Fields
  | (key, j) =>
    match key with
    | "name" => do return { f with task := ← fill key f.task j }
    | "code" => do return { f with code := ← fill key f.code j }
    | "className" => do return { f with className := ← fill key f.className j }
    | "dialect" => do return { f with tag := ← fill key f.tag j }
    | _ => .ok f

def require (name : String) : Option String → Except DecodeError String
  | some s => .ok s
  | none => .error (.missingField name)

/-- All members but the task's name are needed. -/
def finish (f : Fields) : Except DecodeError Definition := do
  let code ← require "code" f.code
  let className ← require "className" f.className
  let tag ← require "dialect" f.tag
  return ⟨f.task.getD "", code, className, tag⟩

end Fields

def item (items : List Json) (place : Nat) : Except DecodeError String :=
  match items[place]? with
  | some j => j.text?
  | none => .error (.wrongLength place "struct FunctionDefinition with 4 elements")

def ofItems (items : List Json) : Except DecodeError Definition := do
  let task ← if items = [] then pure "" else item items 0
  let code ← item items 1
  let className ← item items 2
  let tag ← item items 3
  if 4 < items.length then throw (.wrongLength items.length "fewer elements in array")
  return ⟨task, code, className, tag⟩

def ofJson : Json → Except DecodeError Definition
  | .obj members => do
    let fields ← members.foldlM Fields.add ⟨none, none, none, none⟩
    fields.finish
  | .arr items => ofItems items
  | j => .error (.wrongType j "struct FunctionDefinition")

def listOfJson : Json → Except DecodeError (List Definition)
  | .arr items => items.mapM ofJson
  | j => .error (.wrongType j "a sequence")

end Definition

namespace Dialect

def ofJson (j : Json) : Except DecodeError Dialect := do
  let s ← j.variant (all.map name)
  return (ofName? s).getD java

end Dialect

namespace FailureKind

def ofJson (j : Json) : Except DecodeError FailureKind := do
  let s ← j.variant (all.map name)
  return (ofName? s).getD compileError

end FailureKind

end FunctionJar
