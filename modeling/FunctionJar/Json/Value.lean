import FunctionJar.Json.Number
import FunctionJar.Text.Utf8

namespace FunctionJar

inductive Json
  | null
  | bool (b : Bool)
  | number (n : JsonNumber)
  | str (s : String)
  | arr (items : List Json)
  | obj (members : List (String × Json))
  deriving Inhabited, Repr

namespace Json

def ofNat (n : Nat) : Json := number (.ofNat n)

def get? (key : String) : Json → Option Json
  | obj members => (members.find? fun m => m.1 == key).map (·.2)
  | _ => none

def escapeChar (c : Char) : List Char :=
  match c with
  | '"' => ['\\', '"']
  | '\\' => ['\\', '\\']
  | '\n' => ['\\', 'n']
  | '\r' => ['\\', 'r']
  | '\t' => ['\\', 't']
  | '\x08' => ['\\', 'b']
  | '\x0c' => ['\\', 'f']
  | c =>
    if c.toNat < 32 then
      ['\\', 'u', '0', '0', Text.hexDigit (c.toNat / 16), Text.hexDigit (c.toNat % 16)]
    else [c]

def renderString (s : String) : String :=
  String.ofList ('"' :: s.toList.flatMap escapeChar ++ ['"'])

mutual

def render : Json → String
  | null => "null"
  | bool b => if b then "true" else "false"
  | number n => n.render
  | str s => renderString s
  | arr items => "[" ++ ",".intercalate (renderItems items) ++ "]"
  | obj members => "\x7b" ++ ",".intercalate (renderMembers members) ++ "\x7d"

def renderItems : List Json → List String
  | [] => []
  | j :: rest => render j :: renderItems rest

def renderMembers : List (String × Json) → List String
  | [] => []
  | (key, j) :: rest => (renderString key ++ ":" ++ render j) :: renderMembers rest

end

def newline (depth : Nat) : String := "\n" ++ "".pushn ' ' (2 * depth)

def block (depth : Nat) (opening closing : String) (parts : List String) : String :=
  match parts with
  | [] => opening ++ closing
  | parts =>
    opening ++ newline (depth + 1) ++ ("," ++ newline (depth + 1)).intercalate parts
      ++ newline depth ++ closing

mutual

/-- One member or item to a line, two blanks deeper than what holds it. -/
def pretty (depth : Nat) : Json → String
  | arr items => block depth "[" "]" (prettyItems (depth + 1) items)
  | obj members => block depth "\x7b" "\x7d" (prettyMembers (depth + 1) members)
  | j => render j

def prettyItems (depth : Nat) : List Json → List String
  | [] => []
  | j :: rest => pretty depth j :: prettyItems depth rest

def prettyMembers (depth : Nat) : List (String × Json) → List String
  | [] => []
  | (key, j) :: rest => (renderString key ++ ": " ++ pretty depth j) :: prettyMembers depth rest

end

end Json

end FunctionJar
