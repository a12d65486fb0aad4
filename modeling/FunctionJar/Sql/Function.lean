import FunctionJar.Definition
import FunctionJar.Sql.Expr

namespace FunctionJar.Sql

inductive Fault
  | token (f : TokenFault)
  | expected (what : String) (found : Option Token)
  | noParameters
  | badParameter (name : String)
  | duplicateParameter (name : String)
  | unsupportedType (name : String)
  | expectedSeparator (found : Option Token)
  | emptyBody
  | body (f : ExprFault)
  | trailing (t : Token)
  | cannotReturn (given returns : SqlType)
  deriving DecidableEq, Repr

def Fault.message : Fault → String
  | token f => f.message
  | expected what found => s!"expected {what}, found {Token.describe? found}"
  | noParameters => "expected '(' after FUNCTION"
  | badParameter name => s!"invalid parameter name {name}"
  | duplicateParameter name => s!"duplicate parameter {name}"
  | unsupportedType name => s!"unsupported SQL type {name}"
  | expectedSeparator found => s!"expected ',' or ')', found {Token.describe? found}"
  | emptyBody => "function body is empty"
  | body f => f.message
  | trailing t => s!"unexpected token {t.describe} after expression"
  | cannotReturn given returns => s!"cannot return a {given.name} expression as {returns.name}"

namespace Expr

def arithOp : Arith → Java.BinOp
  | .add => .add
  | .sub => .sub
  | .mul => .mul
  | .div => .div
  | .rem => .rem

def lower : Expr → Java.Expr
  | int v => if v < Nat.pow 2 31 then .int v else .long v
  | decimal d => .double d
  | str s => .string s
  | bool b => .bool b
  | param p => .name p.name
  | paren e => .paren e.lower
  | neg e => e.lower.negated
  | arith op l r => .binary (arithOp op) l.lower r.lower
  | concat l r => .binary .add (.valueOf l.lower) (.valueOf r.lower)

/-- A parameter, perhaps in parentheses: Java holds it as a wrapper object. -/
def isBoxed : Expr → Bool
  | param _ => true
  | paren e => e.isBoxed
  | _ => false

/-- The Java expression of a body, converted to the type that the function returns. -/
def convert (e : Expr) (returns : SqlType) : Except Fault Java.Expr :=
  if e.type = returns then .ok e.lower
  else if returns = .string then .ok (.valueOf e.lower)
  else match e.type.prim?, returns.prim? with
    | some source, some target =>
      .ok (.cast target (if e.isBoxed then .unbox source e.lower else .paren e.lower))
    | _, _ => .error (.cannotReturn e.type returns)

end Expr

structure Function where
  params : List Param
  returns : SqlType
  body : Expr
  java : Java.Expr
  deriving DecidableEq, Repr

namespace Function

def keyword (word : String) : List Token → Except Fault (List Token)
  | .ident id :: rest =>
    if Text.sameLetters id word then .ok rest else .error (.expected word (some (.ident id)))
  | ts => .error (.expected word ts.head?)

def ident (what : String) : List Token → Except Fault (String × List Token)
  | .ident id :: rest => .ok (id, rest)
  | ts => .error (.expected what ts.head?)

def typeNamed (name : String) : Except Fault SqlType :=
  match SqlType.ofName? name with
  | some t => .ok t
  | none => .error (.unsupportedType (Text.upper name))

/-- One parameter behind those in `seen`: its name differs from theirs in more than letter case. -/
def param (seen : List Param) (ts : List Token) : Except Fault (Param × List Token) := do
  let (name, ts) ← ident "parameter name" ts
  if (ClassName.fault? name).isSome then throw (.badParameter name)
  if seen.any fun p => Text.sameLetters p.name name then throw (.duplicateParameter name)
  let (type, ts) ← ident "parameter type" ts
  return (⟨name, ← typeNamed type⟩, ts)

def paramList : Nat → List Param → List Token → Except Fault (List Param × List Token)
  | 0, _, _ => .error (.expectedSeparator none)
  | fuel + 1, seen, ts => do
    let (p, ts) ← param seen ts
    match ts with
    | .comma :: ts => paramList fuel (seen ++ [p]) ts
    | .rightParen :: ts => return (seen ++ [p], ts)
    | ts => throw (.expectedSeparator ts.head?)

def paramsOf : List Token → Except Fault (List Param × List Token)
  | .leftParen :: .rightParen :: ts => .ok ([], ts)
  | .leftParen :: ts => paramList (ts.length + 1) [] ts
  | _ => .error .noParameters

def bodyOf (params : List Param) (ts : List Token) : Except Fault Expr := do
  if ts = [] then throw .emptyBody
  match ← (Expr.parse params ts).mapError Fault.body with
  | (e, []) => return e
  | (_, t :: _) => throw (.trailing t)

def ofTokens (ts : List Token) : Except Fault Function := do
  let ts ← keyword "FUNCTION" ts
  let (params, ts) ← paramsOf ts
  let ts ← keyword "RETURNS" ts
  let (returns, ts) ← ident "return type" ts
  let returns ← typeNamed returns
  let ts ← keyword "AS" ts
  let body ← bodyOf params ts
  let java ← body.convert returns
  return ⟨params, returns, body, java⟩

def parse (text : String) : Except Fault Function := do
  let ts ← (tokenize text).mapError Fault.token
  ofTokens ts

def javaText (f : Function) : String := String.ofList f.java.text

def nullCheck (params : List Param) : List String :=
  match params with
  | [] => []
  | params =>
    let tests := Text.join " || " (params.map fun p => p.name ++ " == null")
    ["        if (" ++ tests ++ ") \x7b", "            return null;", "        \x7d"]

def classLines (f : Function) (className : String) : List String :=
  let header := match ClassName.package className with
    | some package => ["package " ++ package ++ ";", ""]
    | none => []
  let params := Text.join ", " (f.params.map fun p => p.type.wrapper ++ " " ++ p.name)
  header ++
    ["import org.apache.flink.table.functions.ScalarFunction;", "",
      "public class " ++ ClassName.simple className ++ " extends ScalarFunction \x7b",
      "    public " ++ f.returns.wrapper ++ " eval(" ++ params ++ ") \x7b"] ++
    nullCheck f.params ++
    ["        return " ++ f.javaText ++ ";", "    \x7d", "\x7d"]

def classText (f : Function) (className : String) : String :=
  String.join ((f.classLines className).map (· ++ "\n"))

end Function

end FunctionJar.Sql
