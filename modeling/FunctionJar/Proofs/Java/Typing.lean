import FunctionJar.Proofs.Java.Reading

namespace FunctionJar.Java

inductive Ty
  | prim (p : Prim)
  | wrapper (p : Prim)
  | boolean
  | booleanWrapper
  | string
  deriving DecidableEq, Repr

def Prim.common (p q : Prim) : Prim :=
  if p = double ∨ q = double then double
  else if p = float ∨ q = float then float
  else if p = long ∨ q = long then long
  else int

theorem Prim.promote_eq_common (p q : Prim) : p.promote q = p.common q := by
  cases p <;> cases q <;> rfl

namespace Ty

def ofClass? (name : String) : Option Ty :=
  match name with
  | "Integer" => some (wrapper .int)
  | "Long" => some (wrapper .long)
  | "Float" => some (wrapper .float)
  | "Double" => some (wrapper .double)
  | "Boolean" => some booleanWrapper
  | "String" => some string
  | _ => none

def boxed : Ty → Ty
  | prim p => wrapper p
  | boolean => booleanWrapper
  | t => t

def numeric? : Ty → Option Prim
  | prim p | wrapper p => some p
  | boolean | booleanWrapper | string => none

def castsTo (p : Prim) : Ty → Bool
  | prim _ => true
  | wrapper q => q.rank ≤ p.rank
  | boolean | booleanWrapper | string => false

def binary? (op : BinOp) (s t : Ty) : Option Ty :=
  if op = .add ∧ (s = string ∨ t = string) then some string
  else do return prim ((← s.numeric?).common (← t.numeric?))

def method? (m : String) : Ty → Option Ty
  | wrapper _ => ([Prim.int, .long, .float, .double].find? fun p => p.valueMethod == m).map prim
  | _ => none

@[simp] theorem boxed_boxed (t : Ty) : t.boxed.boxed = t.boxed := by cases t <;> rfl

@[simp] theorem numeric?_boxed (t : Ty) : t.boxed.numeric? = t.numeric? := by cases t <;> rfl

theorem binary?_of_numeric {op : BinOp} {s t : Ty} {p q : Prim} (hs : s.numeric? = some p)
    (ht : t.numeric? = some q) : binary? op s t = some (prim (p.common q)) := by
  have hstring : ¬ (op = .add ∧ (s = string ∨ t = string)) := by
    rintro ⟨-, rfl | rfl⟩
    · cases hs
    · cases ht
  rw [binary?, if_neg hstring, hs, ht]
  rfl

theorem method?_wrapper (p q : Prim) : method? q.valueMethod (wrapper p) = some (prim q) := by
  cases q <;> rfl

end Ty

def fraction (digits : List Char) : Nat × Nat :=
  (Text.natOfDigits (digits.filter (· != '.')),
    Nat.pow 10 ((digits.dropWhile (· != '.')).length - 1))

/-- Whether a decimal literal is a `double`: rounded to the nearest one, it is not infinite, and
zero only if it was. Half way beyond the largest number it is infinite, half way below the smallest
one zero. -/
def isDouble (digits : List Char) : Bool :=
  let (n, d) := fraction digits
  n == 0 || (n < (Nat.pow 2 1024 - Nat.pow 2 970) * d && d < n * Nat.pow 2 1075)

namespace Tree

/-- The static type of an expression, where `scope` has the types of the names. The class `String`
is the library's, whatever is in scope. -/
def type? (scope : String → Option Ty) : Tree → Option Ty
  | int v => if v < Nat.pow 2 31 then some (.prim .int) else none
  | long v => if v < Nat.pow 2 63 then some (.prim .long) else none
  | double digits => if isDouble digits then some (.prim .double) else none
  | string _ => some .string
  | bool _ => some .boolean
  | name id => scope id
  | neg t => do return .prim (← (← t.type? scope).numeric?)
  | cast p t => do
    let s ← t.type? scope
    if s.castsTo p then some (.prim p) else none
  | binary op l r => do Ty.binary? op (← l.type? scope) (← r.type? scope)
  | call receiver m => do Ty.method? m (← receiver.type? scope)
  | callWith receiver m t => do
    let _ ← t.type? scope
    if receiver = name "String" ∧ m = "valueOf" then some .string else none

/-- No wrapper object is cast, a wrapper object is asked for a value of its own type only, and all
names are in scope but that of the class in `String.valueOf`. -/
def Proper (scope : String → Option Ty) : Tree → Prop
  | int _ | long _ | double _ | string _ | bool _ => True
  | name id => (scope id).isSome
  | neg t => t.Proper scope
  | cast _ t => (∀ p, t.type? scope ≠ some (.wrapper p)) ∧ t.Proper scope
  | binary _ l r => l.Proper scope ∧ r.Proper scope
  | call receiver m =>
    (∃ p, receiver.type? scope = some (.wrapper p) ∧ m = p.valueMethod) ∧ receiver.Proper scope
  | callWith receiver m t => receiver = name "String" ∧ m = "valueOf" ∧ t.Proper scope

variable {scope : String → Option Ty} {t : Tree}

theorem type?_neg {p : Prim} {s : Ty} (h : t.type? scope = some s) (hs : s.numeric? = some p) :
    (neg t).type? scope = some (.prim p) := by
  simp [type?, h, hs]

theorem type?_cast {s : Ty} {p : Prim} (h : t.type? scope = some s) (hs : s.castsTo p) :
    (cast p t).type? scope = some (.prim p) := by
  simp [type?, h, hs]

theorem type?_valueOf {s : Ty} (h : t.type? scope = some s) :
    t.valueOf.type? scope = some .string := by
  simp [valueOf, type?, h]

theorem type?_call {p q : Prim} (h : t.type? scope = some (.wrapper p)) :
    (call t q.valueMethod).type? scope = some (.prim q) := by
  simp [type?, h, Ty.method?_wrapper]

end Tree

end FunctionJar.Java
