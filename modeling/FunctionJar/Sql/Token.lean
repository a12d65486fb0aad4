import FunctionJar.Text.Quoted
import FunctionJar.Text.Blank

namespace FunctionJar.Sql

inductive Op
  | add
  | sub
  | mul
  | div
  | rem
  | concat
  deriving DecidableEq, Repr

namespace Op

def symbol : Op → String
  | add => "+"
  | sub => "-"
  | mul => "*"
  | div => "/"
  | rem => "%"
  | concat => "||"

end Op

inductive Token
  | ident (name : String)
  | number (digits : String)
  | str (value : String)
  | leftParen
  | rightParen
  | comma
  | op (o : Op)
  deriving DecidableEq, Repr

namespace Token

def describe : Token → String
  | ident s => s!"Ident({Text.quoted s})"
  | number s => s!"Number({Text.quoted s})"
  | str s => s!"Str({Text.quoted s})"
  | leftParen => "LParen"
  | rightParen => "RParen"
  | comma => "Comma"
  | op o => s!"Op({Text.quoted o.symbol})"

def describe? : Option Token → String
  | none => "None"
  | some t => s!"Some({t.describe})"

def doubleQuotes (s : List Char) : List Char :=
  s.flatMap fun c => if c = '\'' then ['\'', '\''] else [c]

/-- The text of a token: a string stands in single quotes, each quote in it doubled. -/
def text : Token → List Char
  | ident s => s.toList
  | number s => s.toList
  | str s => '\'' :: doubleQuotes s.toList ++ ['\'']
  | leftParen => ['(']
  | rightParen => [')']
  | comma => [',']
  | op o => o.symbol.toList

end Token

inductive TokenFault
  | unterminatedString
  | malformedNumber (digits : String)
  | unexpected (c : Char)
  deriving DecidableEq, Repr

def TokenFault.message : TokenFault → String
  | unterminatedString => "unterminated string literal"
  | malformedNumber digits => s!"malformed number {digits}"
  | unexpected c => s!"unexpected character '{c}'"

inductive Mode
  | between
  | word (read : List Char)
  | number (read : List Char)
  | string (read : List Char)
  | quote (read : List Char)
  | bar
  | ended
  deriving DecidableEq, Repr

namespace Mode

def isWordStart (c : Char) : Bool := c.isAlpha || c == '_'

def isWordRest (c : Char) : Bool := c.isAlphanum || c == '_'

def isNumberRest (c : Char) : Bool := c.isDigit || c == '.'

/-- The mode after `c` where no token is under way, and the token that `c` is. -/
def start (c : Char) : Except TokenFault (List Token × Mode) :=
  if Text.isBlank c then .ok ([], between)
  else match c with
    | '(' => .ok ([.leftParen], between)
    | ')' => .ok ([.rightParen], between)
    | ',' => .ok ([.comma], between)
    | '+' => .ok ([.op .add], between)
    | '-' => .ok ([.op .sub], between)
    | '*' => .ok ([.op .mul], between)
    | '/' => .ok ([.op .div], between)
    | '%' => .ok ([.op .rem], between)
    | '|' => .ok ([], bar)
    | ';' => .ok ([], ended)
    | '\'' => .ok ([], string [])
    | c =>
      if c.isDigit then .ok ([], number [c])
      else if isWordStart c then .ok ([], word [c])
      else .error (.unexpected c)

def backwards (read : List Char) : String := String.ofList read.reverse

def numberToken (read : List Char) : Except TokenFault Token :=
  if 1 < read.count '.' ∨ read.head? = some '.' then .error (.malformedNumber (backwards read))
  else .ok (.number (backwards read))

def closed (t : Token) (c : Char) : Except TokenFault (List Token × Mode) :=
  (start c).map fun (ts, m) => (t :: ts, m)

def step (m : Mode) (c : Char) : Except TokenFault (List Token × Mode) :=
  match m with
  | between => start c
  | word read =>
    if isWordRest c then .ok ([], word (c :: read)) else closed (.ident (backwards read)) c
  | number read =>
    if isNumberRest c then .ok ([], number (c :: read))
    else match numberToken read with
      | .ok t => closed t c
      | .error f => .error f
  | string read => if c = '\'' then .ok ([], quote read) else .ok ([], string (c :: read))
  | quote read =>
    if c = '\'' then .ok ([], string (c :: read)) else closed (.str (backwards read)) c
  | bar => if c = '|' then .ok ([.op .concat], between) else .error (.unexpected '|')
  | ended => if Text.isBlank c then .ok ([], ended) else .error (.unexpected ';')

def finish : Mode → Except TokenFault (List Token)
  | between | ended => .ok []
  | word read => .ok [.ident (backwards read)]
  | number read => (numberToken read).map ([·])
  | string _ => .error .unterminatedString
  | quote read => .ok [.str (backwards read)]
  | bar => .error (.unexpected '|')

end Mode

def tokensFrom (m : Mode) : List Char → Except TokenFault (List Token)
  | [] => m.finish
  | c :: rest =>
    match m.step c with
    | .error f => .error f
    | .ok (ts, m') => (tokensFrom m' rest).map (ts ++ ·)

/-- The tokens of a text. One semicolon may end it, with blanks behind. -/
def tokenize (s : String) : Except TokenFault (List Token) := tokensFrom .between s.toList

end FunctionJar.Sql
