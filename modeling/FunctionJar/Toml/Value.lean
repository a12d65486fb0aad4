namespace FunctionJar

inductive TableOrigin
  | header
  | implied
  | dotted
  | inline
  deriving DecidableEq, Repr

/-- A value. Fractional numbers and moments are known only as such. -/
inductive Toml
  | string (s : String)
  | integer (n : Int)
  | fractional
  | boolean (b : Bool)
  | moment
  | array (items : List Toml)
  | table (origin : TableOrigin) (members : List (String × Toml))
  | tables (list : List (List (String × Toml)))
  deriving Repr

namespace Toml

abbrev Members := List (String × Toml)

def text? : Toml → Option String
  | string s => some s
  | _ => none

def count? : Toml → Option Nat
  | integer n => if 0 ≤ n then some n.toNat else none
  | _ => none

def texts? : Toml → Option (List String)
  | array items => items.mapM text?
  | _ => none

def replace (key : String) (value : Toml) (ms : Members) : Members :=
  ms.map fun m => if m.1 == key then (key, value) else m

def change (key : String) (make : Members → Toml) (f : Members → Option Members)
    (inner : Members) (ms : Members) : Option Members :=
  (f inner).map fun inner => replace key (make inner) ms

def changeLast (key : String) (list : List Members) (f : Members → Option Members)
    (ms : Members) : Option Members := do
  let last ← list.getLast?
  let last ← f last
  return replace key (tables (list.dropLast ++ [last])) ms

def within (key : String) (f : Members → Option Members) (ms : Members) : Option Members :=
  match ms.lookup key with
  | none => (f []).map fun inner => ms ++ [(key, table .implied inner)]
  | some (table .inline _) => none
  | some (table origin inner) => change key (table origin) f inner ms
  | some (tables list) => changeLast key list f ms
  | some _ => none

def atPath (f : Members → Option Members) : List String → Members → Option Members
  | [], ms => f ms
  | key :: rest, ms => within key (atPath f rest) ms

def openTable (key : String) (ms : Members) : Option Members :=
  match ms.lookup key with
  | none => some (ms ++ [(key, table .header [])])
  | some (table .implied inner) => some (replace key (table .header inner) ms)
  | some _ => none

def addTable (key : String) (ms : Members) : Option Members :=
  match ms.lookup key with
  | none => some (ms ++ [(key, tables [[]])])
  | some (tables list) => some (replace key (tables (list ++ [[]])) ms)
  | some _ => none

/-- A value under a dotted key. Only a table that dotted keys have made takes it, and no key is
given twice. -/
def insert (value : Toml) : List String → Members → Option Members
  | [], _ => none
  | [key], ms => if (ms.lookup key).isSome then none else some (ms ++ [(key, value)])
  | key :: next :: rest, ms =>
    let f := insert value (next :: rest)
    match ms.lookup key with
    | none => (f []).map fun inner => ms ++ [(key, table .dotted inner)]
    | some (table .dotted inner) => change key (table .dotted) f inner ms
    | some (table .implied inner) =>
      if rest = [] then none else change key (table .implied) f inner ms
    | some (tables list) => if rest = [] then none else changeLast key list f ms
    | some _ => none

end Toml

end FunctionJar
