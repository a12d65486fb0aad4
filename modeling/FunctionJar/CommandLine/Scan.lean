import FunctionJar.Text.Decimal

namespace FunctionJar.CommandLine

inductive Halt
  | usage
  | help
  | version
  deriving DecidableEq, Repr

inductive Kind
  | flag
  | path
  | number
  | halt (h : Halt)
  deriving DecidableEq, Repr

def Kind.accepts : Kind → String → Bool
  | path, v => v ≠ ""
  | number, v => (Text.count? v).isSome
  | _, _ => false

structure Spec where
  long : String
  short : Option Char
  kind : Kind
  deriving DecidableEq, Repr

structure Scanned where
  flags : List String
  values : List (String × String)
  words : List String
  deriving DecidableEq, Repr

namespace Scanned

def empty : Scanned := ⟨[], [], []⟩

def hasFlag (s : Scanned) (long : String) : Bool := s.flags.contains long

def value? (s : Scanned) (long : String) : Option String := s.values.lookup long

def addFlag (s : Scanned) (long : String) : Except Halt Scanned :=
  if s.hasFlag long then .error .usage else .ok { s with flags := long :: s.flags }

def addValue (s : Scanned) (spec : Spec) (v : String) : Except Halt Scanned :=
  if (s.value? spec.long).isSome || !spec.kind.accepts v then .error .usage
  else .ok { s with values := (spec.long, v) :: s.values }

def addWord (places : List Kind) (s : Scanned) (w : String) : Except Halt Scanned :=
  if (places[s.words.length]?).any (·.accepts w) then .ok { s with words := s.words ++ [w] }
  else .error .usage

end Scanned

abbrev Pending := Scanned × Option Spec

/-- The letters of one word. What follows a letter that takes a value is its value. -/
def letters (specs : List Spec) (s : Scanned) : List Char → Except Halt Pending
  | [] => .ok (s, none)
  | c :: rest =>
    match specs.find? fun spec => spec.short == some c with
    | none => .error .usage
    | some spec =>
      match spec.kind with
      | .halt h => .error h
      | .flag => do letters specs (← s.addFlag spec.long) rest
      | _ =>
        match rest with
        | [] => .ok (s, some spec)
        | '=' :: v | v => do return (← s.addValue spec (String.ofList v), none)

/-- An option by its long name, with a value behind an equals sign or without one. -/
def longOption (specs : List Spec) (s : Scanned) (text : List Char) : Except Halt Pending :=
  let name := text.takeWhile (· != '=')
  let attached := (text.drop name.length).tail?.map String.ofList
  match specs.find? fun spec => spec.long == String.ofList name with
  | none => .error .usage
  | some spec =>
    match spec.kind, attached with
    | .halt h, none => .error h
    | .flag, none => do return (← s.addFlag spec.long, none)
    | .halt _, some _ | .flag, some _ => .error .usage
    | _, some v => do return (← s.addValue spec v, none)
    | _, none => .ok (s, some spec)

inductive WordKind
  | plain
  | separator
  | long (text : List Char)
  | short (text : List Char)

def WordKind.of (word : String) : WordKind :=
  match word.toList with
  | ['-', '-'] => separator
  | '-' :: '-' :: text => long text
  | ['-'] => plain
  | '-' :: text => short text
  | _ => plain

def isPlain (word : String) : Bool :=
  match WordKind.of word with
  | .plain => true
  | _ => false

/-- Scans words to their end. There are places for so many that are no options. -/
def scan (specs : List Spec) (places : List Kind) (s : Scanned) :
    List String → Except Halt Scanned
  | [] => .ok s
  | word :: rest =>
    let go (p : Except Halt Pending) : Except Halt Scanned :=
      match p, rest with
      | .error h, _ => .error h
      | .ok (s, none), rest => scan specs places s rest
      | .ok (_, some _), [] => .error .usage
      | .ok (s, some spec), v :: rest =>
        if isPlain v then
          match s.addValue spec v with
          | .ok s => scan specs places s rest
          | .error h => .error h
        else .error .usage
    match WordKind.of word with
    | .plain =>
      match s.addWord places word with
      | .ok s => scan specs places s rest
      | .error h => .error h
    | .separator => rest.foldlM (Scanned.addWord places) s
    | .long text => go (longOption specs s text)
    | .short text => go (letters specs s text)

def scanFlags (specs : List Spec) (s : Scanned) :
    List String → Except Halt (Scanned × List String)
  | [] => .ok (s, [])
  | word :: rest =>
    let go (p : Except Halt Pending) : Except Halt (Scanned × List String) :=
      match p with
      | .ok (s, none) => scanFlags specs s rest
      | .ok (_, some _) => .error .usage
      | .error h => .error h
    match WordKind.of word with
    | .plain => .ok (s, word :: rest)
    | .separator => .error .usage
    | .long text => go (longOption specs s text)
    | .short text => go (letters specs s text)

end FunctionJar.CommandLine
