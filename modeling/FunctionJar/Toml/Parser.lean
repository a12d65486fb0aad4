import FunctionJar.Toml.Number
import FunctionJar.Toml.Text
import FunctionJar.Toml.Value

namespace FunctionJar.Toml

def skipGap (s : List Char) : List Char := s.dropWhile isGap

def isBare (c : Char) : Bool := c.isAlphanum || c == '-' || c == '_'

def simpleKey (s : List Char) : Option (String × List Char) :=
  match s with
  | '"' :: rest => (basic rest).map fun (key, rest) => (String.ofList key, rest)
  | '\'' :: rest => (literal rest).map fun (key, rest) => (String.ofList key, rest)
  | s =>
    let key := s.takeWhile isBare
    if key = [] then none else some (String.ofList key, s.drop key.length)

def deepest : Nat := 79

/-- Keys with points between them, at most as many as `fuel`. -/
def dotted : Nat → List Char → Option (List String × List Char)
  | 0, _ => none
  | fuel + 1, s => do
    let (key, rest) ← simpleKey (skipGap s)
    match skipGap rest with
    | '.' :: rest =>
      let (keys, rest) ← dotted fuel rest
      return (key :: keys, rest)
    | rest => return ([key], rest)

def key (s : List Char) : Option (List String × List Char) := dotted deepest s

def skipLines (inComment : Bool) : List Char → Option (List Char)
  | [] => some []
  | '\r' :: '\n' :: rest => skipLines false rest
  | '\n' :: rest => skipLines false rest
  | c :: rest =>
    if inComment then if isPlain c then skipLines true rest else none
    else if isGap c then skipLines false rest
    else if c = '#' then skipLines true rest
    else some (c :: rest)

def scalar (s : List Char) : Option (Toml × List Char) :=
  match s with
  | '"' :: _ | '\'' :: _ => (text s).map fun (t, rest) => (string (String.ofList t), rest)
  | 't' :: _ => (word ['t', 'r', 'u', 'e'] s).map (boolean true, ·)
  | 'f' :: _ => (word ['f', 'a', 'l', 's', 'e'] s).map (boolean false, ·)
  | s =>
    match moment? s, fractional? s with
    | some rest, _ => some (moment, rest)
    | none, some rest => some (fractional, rest)
    | none, none => (integer? s).map fun (n, rest) => (integer n, rest)

mutual

def value (depth : Nat) : Nat → List Char → Option (Toml × List Char)
  | 0, _ => none
  | fuel + 1, s =>
    match s with
    | '[' :: rest =>
      if depth = 0 then none
      else (items (depth - 1) fuel [] rest).map fun (ts, rest) => (array ts, rest)
    | '{' :: rest =>
      if depth = 0 then none
      else match skipGap rest with
        | '}' :: rest => some (table .inline [], rest)
        | rest => (members (depth - 1) fuel [] rest).map fun (ms, rest) =>
          (table .inline ms, rest)
    | s => scalar s

def items (depth : Nat) : Nat → List Toml → List Char → Option (List Toml × List Char)
  | 0, _, _ => none
  | fuel + 1, done, s =>
    match skipLines false s with
    | none => none
    | some (']' :: rest) => some (done.reverse, rest)
    | some s =>
      match value depth fuel s with
      | none => none
      | some (t, rest) =>
        match skipLines false rest with
        | some (',' :: rest) => items depth fuel (t :: done) rest
        | some (']' :: rest) => some ((t :: done).reverse, rest)
        | _ => none

/-- The rest of a table in place, which has a member to come. -/
def members (depth : Nat) : Nat → Members → List Char → Option (Members × List Char)
  | 0, _, _ => none
  | fuel + 1, done, s =>
    match keyValue depth fuel s with
    | none => none
    | some ((path, t), rest) =>
      match insert t path done, skipGap rest with
      | some done, ',' :: rest => members depth fuel done rest
      | some done, '}' :: rest => some (done, rest)
      | _, _ => none

def keyValue (depth : Nat) : Nat → List Char → Option ((List String × Toml) × List Char)
  | 0, _ => none
  | fuel + 1, s =>
    match key s with
    | some (path, '=' :: rest) =>
      (value depth fuel (skipGap rest)).map fun (t, rest) => ((path, t), rest)
    | _ => none

end

/-- What a document has come to: its tables, and the path of the one that lines belong to. -/
structure Document where
  root : Members
  path : List String

def lineEnd (s : List Char) : Option (List Char) :=
  let s := match skipGap s with
    | '#' :: rest => rest.dropWhile isPlain
    | s => s
  match s with
  | [] => some []
  | '\n' :: rest | '\r' :: '\n' :: rest => some rest
  | _ => none

def header (brackets : List Char) (open' : String → Members → Option Members) (d : Document)
    (s : List Char) : Option (Document × List Char) := do
  let (path, rest) ← key s
  let rest ← word brackets rest
  let last ← path.getLast?
  return (⟨← atPath (open' last) path.dropLast d.root, path⟩, rest)

def line (d : Document) (s : List Char) : Option (Document × List Char) :=
  match s with
  | '[' :: '[' :: rest => header [']', ']'] addTable d rest
  | '[' :: rest => header [']'] openTable d rest
  | s => do
    let ((path, t), rest) ← keyValue deepest (4 * s.length + 4) s
    return (⟨← atPath (insert t path) d.path d.root, d.path⟩, rest)

def lines : Nat → Document → List Char → Option Document
  | 0, _, _ => none
  | fuel + 1, d, s =>
    match skipLines false s with
    | none => none
    | some [] => some d
    | some s =>
      match line d s with
      | none => none
      | some (d, rest) =>
        match lineEnd rest with
        | none => none
        | some rest => lines fuel d rest

def dropMark : List Char → List Char
  | '\uFEFF' :: rest => rest
  | s => s

def parse? (s : String) : Option Members :=
  let chars := dropMark s.toList
  (lines (chars.length + 1) ⟨[], []⟩ chars).map (·.root)

end FunctionJar.Toml
