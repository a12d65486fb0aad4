import FunctionJar.Text.Blank

namespace FunctionJar.Shell

structure Mark where
  char : Char
  isQuoted : Bool
  deriving DecidableEq, Repr

def Mark.is (m : Mark) (c : Char) : Bool := m.char == c && !m.isQuoted

def marks (isQuoted : Bool) (s : String) : List Mark := s.toList.map fun c => ⟨c, isQuoted⟩

def unmark (ms : List Mark) : String := String.ofList (ms.map (·.char))

def classes : List (String × List (Char × Char)) :=
  [("alpha", [('A', 'Z'), ('a', 'z')]), ("digit", [('0', '9')]),
    ("alnum", [('0', '9'), ('A', 'Z'), ('a', 'z')]), ("upper", [('A', 'Z')]),
    ("lower", [('a', 'z')]), ("space", [('\t', '\r'), (' ', ' ')]),
    ("blank", [('\t', '\t'), (' ', ' ')]),
    ("punct", [('!', '/'), (':', '@'), ('[', '\x60'), ('\x7b', '~')]),
    ("xdigit", [('0', '9'), ('A', 'F'), ('a', 'f')]),
    ("cntrl", [('\x00', '\x1f'), ('\x7f', '\x7f')]),
    ("print", [(' ', '~')]), ("graph", [('!', '~')])]

def class? (ms : List Mark) : Option (List (Char × Char) × List Mark) :=
  match ms with
  | a :: b :: rest =>
    let name := rest.takeWhile fun m => !m.is ':'
    match rest.drop name.length with
    | c :: d :: rest =>
      if a.is '[' && b.is ':' && c.is ':' && d.is ']' then
        (classes.lookup (unmark name)).map (·, rest)
      else none
    | _ => none
  | _ => none

/-- The characters between an opening bracket and the closing one, which is not the first of them,
and what follows it. -/
def bracketBody (isFirst : Bool) : Nat → List Mark → Option (List (Char × Char) × List Mark)
  | 0, _ => none
  | _, [] => none
  | fuel + 1, m :: rest =>
    if m.is ']' && !isFirst then some ([], rest)
    else match class? (m :: rest), rest with
      | some (chars, rest), _ => (bracketBody false fuel rest).map fun (cs, r) => (chars ++ cs, r)
      | none, dash :: last :: rest' =>
        if dash.is '-' && !last.is ']' then
          (bracketBody false fuel rest').map fun (cs, r) => ((m.char, last.char) :: cs, r)
        else (bracketBody false fuel rest).map fun (cs, r) => ((m.char, m.char) :: cs, r)
      | none, rest => (bracketBody false fuel rest).map fun (cs, r) => ((m.char, m.char) :: cs, r)

def bracket? (ms : List Mark) : Option (List (Char × Char) × List Mark) :=
  bracketBody true (ms.length + 1) ms

def inSet (set : List (Char × Char)) (c : Char) : Bool := set.any fun r => r.1 ≤ c && c ≤ r.2

/-- What one step of a pattern accepts, and the rest of the pattern. -/
inductive Wild
  | star
  | any
  | set (negated : Bool) (chars : List (Char × Char))
  | one (c : Char)

def bracketWild (negated : Bool) (body rest : List Mark) : Wild × List Mark :=
  match bracket? body with
  | some (chars, rest') => (.set negated chars, rest')
  | none => (.one '[', rest)

def wild (m : Mark) (rest : List Mark) : Wild × List Mark :=
  if m.is '*' then (.star, rest)
  else if m.is '?' then (.any, rest)
  else if m.is '[' then
    match rest with
    | n :: rest' => if n.is '!' then bracketWild true rest' rest
      else bracketWild false rest rest
    | [] => (.one '[', rest)
  else (.one m.char, rest)

def wilds : Nat → List Mark → List Wild
  | 0, _ => []
  | _, [] => []
  | fuel + 1, m :: rest =>
    let (w, rest) := wild m rest
    w :: wilds fuel rest

def Wild.accepts (w : Wild) (c : Char) : Bool :=
  match w with
  | star | any => true
  | set negated chars => inSet chars c != negated
  | one d => c == d

def fits : List Wild → List Char → Bool
  | [], s => s.isEmpty
  | .star :: ws, s => (List.range (s.length + 1)).any fun n => fits ws (s.drop n)
  | w :: ws, c :: s => w.accepts c && fits ws s
  | _ :: _, [] => false

def matchesPattern (pattern : List Mark) (s : List Char) : Bool :=
  fits (wilds (pattern.length + 1) pattern) s

/-- The number of characters a pattern takes off the start of a text: the first of `lengths` that
fits. -/
def takenOff (pattern : List Mark) (s : List Char) (lengths : List Nat) : Option Nat :=
  lengths.find? fun n => matchesPattern pattern (s.take n)

def cutStart (longest : Bool) (pattern : List Mark) (s : String) : String :=
  let chars := s.toList
  let lengths := List.range (chars.length + 1)
  match takenOff pattern chars (if longest then lengths.reverse else lengths) with
  | some n => String.ofList (chars.drop n)
  | none => s

def cutEnd (longest : Bool) (pattern : List Mark) (s : String) : String :=
  let chars := s.toList
  let lengths := List.range (chars.length + 1)
  match (if longest then lengths else lengths.reverse).find? fun n =>
      matchesPattern pattern (chars.drop n) with
  | some n => String.ofList (chars.take n)
  | none => s

end FunctionJar.Shell
