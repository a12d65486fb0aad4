namespace FunctionJar.Java

/-- The numeric primitive types, each wider than the ones before it. -/
inductive Prim
  | int
  | long
  | float
  | double
  deriving DecidableEq, Repr

namespace Prim

def name : Prim → String
  | int => "int"
  | long => "long"
  | float => "float"
  | double => "double"

def rank : Prim → Nat
  | int => 0
  | long => 1
  | float => 2
  | double => 3

def promote (p q : Prim) : Prim := if q.rank ≤ p.rank then p else q

end Prim

inductive BinOp
  | add
  | sub
  | mul
  | div
  | rem
  deriving DecidableEq, Repr

def BinOp.symbol : BinOp → Char
  | add => '+'
  | sub => '-'
  | mul => '*'
  | div => '/'
  | rem => '%'

inductive Expr
  | int (value : Nat)
  | long (value : Nat)
  | double (digits : String)
  | string (value : String)
  | bool (value : Bool)
  | name (id : String)
  | paren (inner : Expr)
  | neg (inner : Expr)
  | binary (op : BinOp) (left right : Expr)
  | valueOf (inner : Expr)
  | unbox (prim : Prim) (inner : Expr)
  | cast (prim : Prim) (inner : Expr)
  deriving DecidableEq, Repr

def escapeChar (c : Char) : List Char :=
  match c with
  | '\\' => ['\\', '\\']
  | '"' => ['\\', '"']
  | '\n' => ['\\', 'n']
  | c => [c]

def stringLiteral (s : String) : List Char := '"' :: s.toList.flatMap escapeChar ++ ['"']

def valueOfMethod : String := "String.valueOf"

def Prim.valueMethod (p : Prim) : String := p.name ++ "Value"

def boolText (b : Bool) : String := if b then "true" else "false"

namespace Expr

def text : Expr → List Char
  | int v => (toString v).toList
  | long v => (toString v).toList ++ ['L']
  | double d => d.toList
  | string s => stringLiteral s
  | bool b => (boolText b).toList
  | name id => id.toList
  | paren e => '(' :: e.text ++ [')']
  | neg e => '-' :: e.text
  | binary op l r => l.text ++ [' ', op.symbol, ' '] ++ r.text
  | valueOf e => valueOfMethod.toList ++ '(' :: e.text ++ [')']
  | unbox p e => e.text ++ '.' :: p.valueMethod.toList ++ ['(', ')']
  | cast p e => '(' :: p.name.toList ++ [')', ' '] ++ e.text

/-- The negation of an expression, in parentheses where two minus signs would run together. -/
def negated (e : Expr) : Expr :=
  if e.text.head? = some '-' then neg (paren e) else neg e

end Expr

end FunctionJar.Java
