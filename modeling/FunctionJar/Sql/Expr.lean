import FunctionJar.ClassName
import FunctionJar.Sql.Token
import FunctionJar.Sql.Type
import FunctionJar.Text.Decimal

namespace FunctionJar.Sql

structure Param where
  name : String
  type : SqlType
  deriving DecidableEq, Repr

inductive Arith
  | add
  | sub
  | mul
  | div
  | rem
  deriving DecidableEq, Repr

def Arith.op : Arith → Op
  | add => .add
  | sub => .sub
  | mul => .mul
  | div => .div
  | rem => .rem

inductive Expr
  | int (value : Nat)
  | decimal (digits : String)
  | str (value : String)
  | bool (value : Bool)
  | param (p : Param)
  | paren (inner : Expr)
  | neg (inner : Expr)
  | arith (op : Arith) (left right : Expr)
  | concat (left right : Expr)
  deriving DecidableEq, Repr

namespace Expr

def promoted (s t : SqlType) : Option SqlType := do
  return SqlType.ofPrim (Java.Prim.promote (← s.prim?) (← t.prim?))

def type : Expr → SqlType
  | int v => if v < Nat.pow 2 31 then .int else .bigint
  | decimal _ => .double
  | str _ => .string
  | bool _ => .boolean
  | param p => p.type
  | paren e => e.type
  | neg e => e.type
  | arith _ l r => (promoted l.type r.type).getD l.type
  | concat _ _ => .string

end Expr

inductive ExprFault
  | outOfRange (digits : String)
  | unknownIdentifier (name : String)
  | cannotNegate (type : SqlType)
  | notNumeric (op : Op) (left right : SqlType)
  | missingParen
  | unexpectedToken (t : Token)
  | unexpectedEnd
  deriving DecidableEq, Repr

def ExprFault.message : ExprFault → String
  | outOfRange digits => s!"integer literal {digits} is out of range"
  | unknownIdentifier name => s!"unknown identifier {name}"
  | cannotNegate type => s!"cannot negate a {type.name} expression"
  | notNumeric op left right =>
    s!"operator {op.symbol} needs numeric operands, found {left.name} and {right.name} " ++
      "(use || to concatenate)"
  | missingParen => "missing ')' in expression"
  | unexpectedToken t => s!"unexpected token {t.describe} in expression"
  | unexpectedEnd => "unexpected end of expression"

namespace Expr

/-- A number with a point is a decimal; a whole number has to fit into 64 bits. -/
def ofNumber (digits : String) : Except ExprFault Expr :=
  if '.' ∈ digits.toList then .ok (decimal digits)
  else
    let v := Text.natOfDigits digits.toList
    if v < Nat.pow 2 63 then .ok (int v) else .error (.outOfRange digits)

def ofIdent (params : List Param) (id : String) : Except ExprFault Expr :=
  if Text.sameLetters id "true" then .ok (bool true)
  else if Text.sameLetters id "false" then .ok (bool false)
  else match params.find? fun p => Text.sameLetters p.name id with
    | some p => .ok (param p)
    | none => .error (.unknownIdentifier id)

def negate (e : Expr) : Except ExprFault Expr :=
  match e.type.prim? with
  | some _ => .ok (neg e)
  | none => .error (.cannotNegate e.type)

def combine (op : Op) (l r : Expr) : Except ExprFault Expr :=
  let numeric (a : Arith) : Except ExprFault Expr :=
    match promoted l.type r.type with
    | some _ => .ok (arith a l r)
    | none => .error (.notNumeric op l.type r.type)
  match op with
  | .concat => .ok (concat l r)
  | .add => numeric .add
  | .sub => numeric .sub
  | .mul => numeric .mul
  | .div => numeric .div
  | .rem => numeric .rem

abbrev Parsed := Except ExprFault (Expr × List Token)

def isSum : Op → Bool
  | .add | .sub | .concat => true
  | _ => false

mutual

/-- All binary operators associate to the left; concatenation has the level of the sum.

    expr    := term (('+' | '-' | '||') term)*
    term    := unary (('*' | '/' | '%') unary)*
    unary   := '-' unary | primary
    primary := number | string | TRUE | FALSE | parameter | '(' expr ')' -/
def expr (params : List Param) : Nat → List Token → Parsed
  | 0, _ => .error .unexpectedEnd
  | fuel + 1, ts => do
    let (e, rest) ← term params fuel ts
    sums params fuel e rest

def sums (params : List Param) : Nat → Expr → List Token → Parsed
  | fuel + 1, l, .op o :: rest =>
    if isSum o then do
      let (r, rest) ← term params fuel rest
      let e ← combine o l r
      sums params fuel e rest
    else .ok (l, .op o :: rest)
  | _, l, rest => .ok (l, rest)

def term (params : List Param) : Nat → List Token → Parsed
  | 0, _ => .error .unexpectedEnd
  | fuel + 1, ts => do
    let (e, rest) ← unary params fuel ts
    products params fuel e rest

def products (params : List Param) : Nat → Expr → List Token → Parsed
  | fuel + 1, l, .op o :: rest =>
    if isSum o then .ok (l, .op o :: rest)
    else do
      let (r, rest) ← unary params fuel rest
      let e ← combine o l r
      products params fuel e rest
  | _, l, rest => .ok (l, rest)

def unary (params : List Param) : Nat → List Token → Parsed
  | 0, _ => .error .unexpectedEnd
  | fuel + 1, .op .sub :: rest => do
    let (e, rest) ← unary params fuel rest
    let e ← negate e
    return (e, rest)
  | fuel + 1, ts => primary params fuel ts

def primary (params : List Param) : Nat → List Token → Parsed
  | fuel + 1, .leftParen :: rest => do
    match ← expr params fuel rest with
    | (e, .rightParen :: rest) => return (paren e, rest)
    | _ => throw .missingParen
  | _, .number digits :: rest => do return (← ofNumber digits, rest)
  | _, .str s :: rest => .ok (str s, rest)
  | _, .ident id :: rest => do return (← ofIdent params id, rest)
  | _, t :: _ => .error (.unexpectedToken t)
  | _, [] => .error .unexpectedEnd

end

/-- Enough for every call on `ts`: four levels for each token, and the first four. -/
def fuelFor (ts : List Token) : Nat := 4 * ts.length + 4

def parse (params : List Param) (ts : List Token) : Parsed := expr params (fuelFor ts) ts

end Expr

end FunctionJar.Sql
