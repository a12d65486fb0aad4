import FunctionJar.ClassName
import FunctionJar.Dialect
import FunctionJar.Failure

namespace FunctionJar

structure Definition where
  task : String
  code : String
  className : String
  tag : String
  deriving DecidableEq, Repr

def Definition.named (className tag code : String) : Definition := ⟨className, code, className, tag⟩

/-- A definition that can be compiled, with its place in the batch. -/
structure SourceUnit where
  index : Nat
  task : String
  className : String
  dialect : Dialect
  code : String
  deriving DecidableEq, Repr

namespace SourceUnit

def simpleName (u : SourceUnit) : String := ClassName.simple u.className

def package (u : SourceUnit) : Option String := ClassName.package u.className

end SourceUnit

inductive Rejection
  | emptySource (className : String)
  | badName (fault : ClassName.Fault)
  | unknownDialect (tag : String)
  | duplicate (className : String)
  deriving DecidableEq, Repr

namespace Rejection

def message : Rejection → String
  | emptySource name => s!"'{name}' has empty source"
  | badName fault => fault.message
  | unknownDialect tag => s!"unsupported dialect '{tag}'"
  | duplicate name => s!"'{name}' is defined more than once in the batch"

def failure (r : Rejection) : Failure := ⟨.invalidDefinition, r.message⟩

end Rejection

inductive Normalized
  | ready (unit : SourceUnit)
  | rejected (index : Nat) (className : String) (reason : Rejection)
  deriving DecidableEq, Repr

namespace Normalized

def index : Normalized → Nat
  | ready u => u.index
  | rejected i _ _ => i

def className : Normalized → String
  | ready u => u.className
  | rejected _ n _ => n

def unit? : Normalized → Option SourceUnit
  | ready u => some u
  | rejected .. => none

def reason? : Normalized → Option Rejection
  | ready _ => none
  | rejected _ _ reason => some reason

end Normalized

namespace Definition

def trimmedName (d : Definition) : String := Text.trimText d.className

/-- The dialect of an acceptable definition. `taken` are the names of the units before it. -/
def accept (d : Definition) (taken : List String) : Except Rejection Dialect := do
  if Text.isBlankText d.code then throw (.emptySource d.trimmedName)
  (ClassName.check d.trimmedName).mapError Rejection.badName
  let dialect ← (Dialect.ofTag d.tag).mapError Rejection.unknownDialect
  if d.trimmedName ∈ taken then throw (.duplicate d.trimmedName)
  return dialect

def normalizeOne (d : Definition) (index : Nat) (taken : List String) : Normalized :=
  match d.accept taken with
  | .ok dialect => .ready ⟨index, d.task, d.trimmedName, dialect, d.code⟩
  | .error reason => .rejected index d.trimmedName reason

def normalizeFrom (index : Nat) (taken : List String) : List Definition → List Normalized
  | [] => []
  | d :: rest =>
    let n := d.normalizeOne index taken
    n :: normalizeFrom (index + 1) ((n.unit?.map SourceUnit.className).toList ++ taken) rest

/-- One element for each definition, in its place. Only names of ready units are taken, so a
rejected definition never stands in the way of a later one. -/
def normalize (ds : List Definition) : List Normalized := normalizeFrom 0 [] ds

theorem length_normalizeFrom (ds : List Definition) (index : Nat) (taken : List String) :
    (normalizeFrom index taken ds).length = ds.length := by
  induction ds generalizing index taken with
  | nil => rfl
  | cons d rest ih => simp [normalizeFrom, ih]

theorem index_normalizeOne (d : Definition) (index : Nat) (taken : List String) :
    (d.normalizeOne index taken).index = index := by
  unfold normalizeOne
  split <;> rfl

end Definition

end FunctionJar
