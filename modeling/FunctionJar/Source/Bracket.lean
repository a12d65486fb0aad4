import FunctionJar.Source.Piece

namespace FunctionJar.Source

inductive Fault
  | leftOpen (line : Nat) (what : Opened)
  | unexpected (line : Nat) (closer : Char)
  | mismatch (line : Nat) (closer opener : Char) (openedAt : Nat)
  | neverClosed (line : Nat) (opener : Char)
  deriving DecidableEq, Repr

def Opened.name : Opened → String
  | blockComment => "block comment"
  | textBlock => "multi-line string"
  | literal => "literal"

def Fault.message : Fault → String
  | leftOpen line what => s!"line {line}: unterminated {what.name}"
  | unexpected line closer => s!"line {line}: unexpected '{closer}'"
  | mismatch line closer opener at_ =>
    s!"line {line}: '{closer}' does not close '{opener}' opened at line {at_}"
  | neverClosed line opener => s!"line {line}: '{opener}' is never closed"

def closer? : Char → Option Char
  | '(' => some ')'
  | '[' => some ']'
  | '{' => some '}'
  | _ => none

def isCloser (c : Char) : Bool := c == ')' || c == ']' || c == '}'

def feeds (s : List Char) : Nat := s.count '\n'

structure Bracket where
  opener : Char
  line : Nat
  deriving DecidableEq, Repr

/-- The open brackets, innermost first, after one more character of code. -/
def Bracket.step (line : Nat) (opened : List Bracket) (c : Char) : Except Fault (List Bracket) :=
  if (closer? c).isSome then .ok (⟨c, line⟩ :: opened)
  else if isCloser c then
    match opened with
    | [] => .error (.unexpected line c)
    | b :: outer =>
      if closer? b.opener = some c then .ok outer
      else .error (.mismatch line c b.opener b.line)
  else .ok opened

/-- The line and the open brackets behind `pieces`. -/
def Bracket.run (line : Nat) (opened : List Bracket) :
    List Piece → Except Fault (Nat × List Bracket)
  | [] => .ok (line, opened)
  | .code c :: rest =>
    match Bracket.step line opened c with
    | .error f => .error f
    | .ok opened => Bracket.run (if c = '\n' then line + 1 else line) opened rest
  | piece :: rest => Bracket.run (line + feeds piece.blanked) opened rest

def check (ps : Pieces) : Except Fault Unit :=
  match Bracket.run 1 [] ps.pieces with
  | .error f => .error f
  | .ok (line, opened) =>
    match ps.leftOpen, opened with
    | some what, _ => .error (.leftOpen line what)
    | none, b :: _ => .error (.neverClosed b.line b.opener)
    | none, [] => .ok ()

def scan (style : Style) (s : List Char) : Except Fault (List Char) :=
  let ps := pieces style s
  match check ps with
  | .error f => .error f
  | .ok () => .ok (ps.pieces.flatMap Piece.blanked)

end FunctionJar.Source
