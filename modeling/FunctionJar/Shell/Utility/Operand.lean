import FunctionJar.Shell.Process
import FunctionJar.Text.Decimal
import FunctionJar.Total

namespace FunctionJar.Shell.Utility

open Text (Bytes)

def escaped? (c : Char) : Option (List Char) :=
  let octal (b : UInt8) : List Char :=
    let digits := Nat.toDigits 8 b.toNat
    '\\' :: List.replicate (3 - digits.length) '0' ++ digits
  match c with
  | '\n' => some ['\\', 'n']
  | '\t' => some ['\\', 't']
  | '\r' => some ['\\', 'r']
  | '\x07' => some ['\\', 'a']
  | '\x08' => some ['\\', 'b']
  | '\x0b' => some ['\\', 'v']
  | '\x0c' => some ['\\', 'f']
  | c =>
    if c.toNat < 32 ∨ 127 ≤ c.toNat then some ((bytesOfChar c).flatMap octal) else none

/-- A text within single quotes as a shell would read it back. `escaping` says that the quotes
around an escape are still open. -/
def quotedChars (escaping : Bool) : List Char → List Char
  | [] => ['\'']
  | c :: rest =>
    match escaped? c with
    | some cs =>
      (if escaping then cs else ['\'', '$', '\''] ++ cs) ++ quotedChars true rest
    | none =>
      let lead := if escaping then ['\'', '\''] else []
      let here := if c = '\'' then ['\'', '\\', '\'', '\''] else [c]
      lead ++ here ++ quotedChars false rest

/-- Characters that mean nothing to a shell, not even within double quotes. -/
def isHarmless (c : Char) : Bool := c.isAlphanum || " %+,-./:]_\x7b\x7d".toList.contains c

def quotedText (s : String) : String :=
  let chars := s.toList
  if chars.contains '\'' ∧ chars.all fun c => c == '\'' || isHarmless c then "\"" ++ s ++ "\""
  else String.ofList ('\'' :: quotedChars false chars)

def shownText (s : String) : String :=
  if s ≠ "" ∧ s.toList.all fun c => (isHarmless c || c == '@') && c != ' ' && c != ':' then s
  else quotedText s

/-- How a program is called: the letters that are options by themselves, those that take a value,
and those that take one only from the same argument; and long names, each for a letter. -/
structure Usage where
  name : String
  flags : String
  valued : String
  optional : String
  long : List (String × Char)
  status : Nat
  inOrder : Bool

/-- A usage with letters only, where a wrong call has the status one. -/
def Usage.plain (name flags valued : String) (long : List (String × Char)) : Usage :=
  ⟨name, flags, valued, "", long, 1, false⟩

structure Given where
  options : List (Char × String)
  operands : List String

namespace Given

def has (g : Given) (c : Char) : Bool := g.options.any fun o => o.1 == c

def hasAny (g : Given) (letters : String) : Bool := letters.toList.any g.has

def value? (g : Given) (c : Char) : Option String := g.options.reverse.lookup c

def values (g : Given) (c : Char) : List String := (g.options.filter fun o => o.1 == c).map (·.2)

def letters (g : Given) : List Char := g.options.map (·.1)

def last? (g : Given) (letters : String) : Option Char :=
  (g.options.reverse.find? fun o => letters.toList.contains o.1).map (·.1)

def push (g : Given) (options : List (Char × String)) : Given :=
  { g with options := options ++ g.options }

end Given

namespace Usage

/-- What a group of letters holds: the options without values in front, and then one with a value or
one that is not known. -/
def group (u : Usage) : List Char → List (Char × String) × Option (Char × List Char)
  | [] => ([], none)
  | c :: cs =>
    if u.optional.toList.contains c then ([(c, String.ofList cs)], none)
    else if u.flags.toList.contains c then
      let (plain, last) := u.group cs
      ((c, "") :: plain, last)
    else ([], some (c, cs))

def letter? (u : Usage) (name : String) : Except String Char :=
  let near := u.long.filter fun l => l.1.startsWith name
  match u.long.lookup name, (near.map (·.2)).eraseDups with
  | some c, _ | none, [c] => .ok c
  | none, [] => .error "unrecognized option"
  | none, _ =>
    let all := near.map fun l => " '--" ++ l.1 ++ "'"
    .error s!"option '--{name}' is ambiguous; possibilities:{String.join all}"

def parse (u : Usage) : List String → Except String Given
  | [] => .ok ⟨[], []⟩
  | arg :: rest =>
    match arg.toList with
    | ['-', '-'] => .ok ⟨[], rest⟩
    | '-' :: '-' :: long => do
      let name := String.ofList (long.takeWhile (· != '='))
      let c ← (u.letter? name).mapError fun text =>
        if text = "unrecognized option" then s!"unrecognized option '{arg}'" else text
      let isValued := u.valued.toList.contains c
      match long.dropWhile (· != '='), rest with
      | '=' :: value, rest =>
        if isValued ∨ u.optional.toList.contains c then
          return (← u.parse rest).push [(c, String.ofList value)]
        else throw s!"option '--{name}' doesn't allow an argument"
      | _, value :: rest' =>
        if isValued then return (← u.parse rest').push [(c, value)]
        else return (← u.parse (value :: rest')).push [(c, "")]
      | _, [] =>
        if isValued then throw s!"option '--{name}' requires an argument"
        else return (← u.parse []).push [(c, "")]
    | '-' :: c :: cs =>
      match u.group (c :: cs), rest with
      | (plain, none), rest => (u.parse rest).map fun g => g.push plain
      | (plain, some (c, value)), rest =>
        if !u.valued.toList.contains c then .error s!"invalid option -- '{c}'"
        else match value, rest with
          | [], [] => .error s!"option requires an argument -- '{c}'"
          | [], value :: rest => (u.parse rest).map fun g => g.push (plain ++ [(c, value)])
          | value, rest =>
            (u.parse rest).map fun g => g.push (plain ++ [(c, String.ofList value)])
    | _ =>
      if u.inOrder then .ok ⟨[], arg :: rest⟩
      else (u.parse rest).map fun g => { g with operands := arg :: g.operands }

def refuse (u : Usage) (p : Process) (text : String) : Process :=
  p.fail u.status s!"{u.name}: {text}\nTry '{u.name} --help' for more information."

def run (u : Usage) (args : List String) (p : Process) (act : Given → Process) : Process :=
  match u.parse args with
  | .ok g => act g
  | .error text => u.refuse p text

end Usage

def each (p : Process) (items : List String) (act : Process → String → Process) : Process :=
  items.foldl act (p.withStatus 0)

def plenty : Nat := 131072

def contentOf (p : Process) (operand : String) : Except OsError (Process × Bytes) :=
  match operand with
  | "-" | "/dev/stdin" => .ok (p.withInput [], p.input)
  | "/dev/null" => .ok (p, [])
  | "/dev/zero" => .ok (p, List.replicate plenty 0)
  | operand => (p.disk.read (p.path operand)).map fun bytes => (p, bytes)

def operandsOr (operands : List String) : List String := if operands = [] then ["-"] else operands

def eachContent (p : Process) (operands : List String)
    (refuse : Process → String → OsError → Process)
    (act : Process → String → Bytes → Process) : Process :=
  each p (operandsOr operands) fun p operand =>
    match contentOf p operand with
    | .ok (p, bytes) => act p operand bytes
    | .error e => refuse p operand e

def byteLines (bytes : Bytes) : List Bytes :=
  let step (state : List Bytes × Bytes) (b : UInt8) : List Bytes × Bytes :=
    if b = 10 then ((b :: state.2).reverse :: state.1, []) else (state.1, b :: state.2)
  let (closed, last) := bytes.foldl step ([], [])
  (if last.isEmpty then closed else last.reverse :: closed).reverse

def withoutFeed (line : Bytes) : Bytes := if line.getLast? = some 10 then line.dropLast else line

def byteChars (bytes : Bytes) : List Char := bytes.map fun b => Char.ofNat b.toNat

def ofByteChars (cs : List Char) : Bytes := cs.map fun c => UInt8.ofNat c.toNat

def bytewise (s : String) : List Char := byteChars (bytesOf s)

def textLines (bytes : Bytes) : List (List Char) :=
  (byteLines bytes).map fun l => byteChars (withoutFeed l)

def sorted (names : List String) : List String := names.mergeSort (· ≤ ·)

def printLines (p : Process) (lines : List String) : Process :=
  p.print (lines.flatMap fun l => bytesOf (l ++ "\n"))

def natOf (s : String) : Nat := (Text.digits? (Text.dropPlus s.toList)).getD 0

end FunctionJar.Shell.Utility
