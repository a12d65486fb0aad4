import FunctionJar.Text.Decimal

namespace FunctionJar.Shell.Arith

inductive Token
  | number (n : Int)
  | name (s : String)
  | op (s : String)
  | leftParen
  | rightParen
  deriving DecidableEq, Repr

inductive Fault
  | noOperand
  | moreBehind
  | unclosed
  | noColon
  | zeroDivisor
  | notNumber (value : String)
  deriving DecidableEq, Repr

def Fault.message (expression : String) (f : Fault) : String :=
  let about (text : String) := s!"arithmetic expression: {text}: \"{expression}\""
  match f with
  | noOperand => about "expecting primary"
  | moreBehind => about "expecting EOF"
  | unclosed => about "expecting ')'"
  | noColon => about "expecting ':'"
  | zeroDivisor => about "division by zero"
  | notNumber value => s!"Illegal number: {value}"

def wrap (n : Int) : Int := Int.bmod n (Nat.pow 2 64)

def largest : Nat := Nat.pow 2 63 - 1

def isNameStart (c : Char) : Bool := c.isAlpha || c == '_'

def isNameRest (c : Char) : Bool := c.isAlphanum || c == '_'

def isBlank (c : Char) : Bool := " \t\n\r\x0b\x0c".toList.contains c

def digit? (c : Char) : Option Nat :=
  if c.isDigit then some (c.toNat - 48)
  else if 'a' ≤ c ∧ c ≤ 'f' then some (c.toNat - 87)
  else if 'A' ≤ c ∧ c ≤ 'F' then some (c.toNat - 55)
  else none

/-- The digits of a base that a text starts with, and the text behind them. -/
def digits (base : Nat) (s : List Char) : List Nat × List Char :=
  let taken := s.takeWhile fun c => (digit? c).any (· < base)
  (taken.filterMap digit?, s.drop taken.length)

def ofDigits (base : Nat) (ds : List Nat) : Nat :=
  min largest (ds.foldl (fun n d => n * base + d) 0)

/-- The number without a sign that a text starts with: decimal, or after a zero octal, or after a
zero and an `x` hexadecimal, after a zero and a `b` binary. Numbers that are
too large become the largest one. -/
def number? (s : List Char) : Option (Nat × List Char) :=
  match s with
  | '0' :: x :: rest =>
    let base := if x = 'x' ∨ x = 'X' then 16 else if x = 'b' ∨ x = 'B' then 2 else 8
    match if base = 8 then ([], []) else digits base rest with
    | ([], _) =>
      let (ds, rest) := digits 8 s
      some (ofDigits 8 ds, rest)
    | (ds, rest) => some (ofDigits base ds, rest)
  | s =>
    match digits 10 s with
    | ([], _) => none
    | (ds, rest) => some (ofDigits 10 ds, rest)

def operators : List String :=
  ["<<=", ">>=", "||", "&&", "==", "!=", "<=", ">=", "<<", ">>", "+=", "-=", "*=", "/=", "%=",
    "&=", "^=", "|=", "=", "+", "-", "*", "/", "%", "<", ">", "&", "|", "^", "!", "~", "?", ":"]

def tokens : Nat → List Char → List Token
  | 0, _ => []
  | _, [] => []
  | fuel + 1, c :: rest =>
    if isBlank c then tokens fuel rest
    else if c.isDigit then
      match number? (c :: rest) with
      | some (n, rest) => .number n :: tokens fuel rest
      | none => []
    else if isNameStart c then
      .name (String.ofList (c :: rest.takeWhile isNameRest)) ::
        tokens fuel (rest.dropWhile isNameRest)
    else if c = '(' then .leftParen :: tokens fuel rest
    else if c = ')' then .rightParen :: tokens fuel rest
    else
      match operators.find? fun o => o.toList.isPrefixOf (c :: rest) with
      | some o => .op o :: tokens fuel (rest.drop (o.length - 1))
      | none => [.op (String.singleton c)]

inductive Expr
  | number (n : Int)
  | name (s : String)
  | unary (op : String) (e : Expr)
  | binary (op : String) (a b : Expr)
  | cond (test yes no : Expr)
  | assign (s : String) (op : Option String) (e : Expr)

def level? : String → Option Nat
  | "||" => some 1
  | "&&" => some 2
  | "|" => some 3
  | "^" => some 4
  | "&" => some 5
  | "==" | "!=" => some 6
  | "<" | "<=" | ">" | ">=" => some 7
  | "<<" | ">>" => some 8
  | "+" | "-" => some 9
  | "*" | "/" | "%" => some 10
  | _ => none

def assignment? (op : String) : Option (Option String) :=
  if op = "=" then some none
  else if op.endsWith "=" then
    let inner := (op.dropEnd 1).toString
    if ["+", "-", "*", "/", "%", "&", "^", "|", "<<", ">>"].contains inner then some (some inner)
    else none
  else none

mutual

def operand : Nat → List Token → Except Fault (Expr × List Token)
  | 0, _ => .error .noOperand
  | fuel + 1, .op o :: ts =>
    if ["-", "+", "!", "~"].contains o then
      (operand fuel ts).map fun (e, ts) => (.unary o e, ts)
    else .error .noOperand
  | _, .number n :: ts => .ok (.number n, ts)
  | _, .name s :: ts => .ok (.name s, ts)
  | fuel + 1, .leftParen :: ts => do
    match ← whole fuel ts with
    | (e, .rightParen :: ts) => return (e, ts)
    | _ => throw .unclosed
  | _, _ => .error .noOperand

def binary (least : Nat) : Nat → List Token → Except Fault (Expr × List Token)
  | 0, _ => .error .noOperand
  | fuel + 1, ts => do
    let (e, ts) ← operand fuel ts
    more least fuel e ts

def more (least : Nat) : Nat → Expr → List Token → Except Fault (Expr × List Token)
  | 0, e, ts => .ok (e, ts)
  | fuel + 1, a, .op o :: ts =>
    match level? o with
    | none => .ok (a, .op o :: ts)
    | some l =>
      if l < least then .ok (a, .op o :: ts)
      else do
        let (b, ts) ← binary (l + 1) fuel ts
        more least fuel (.binary o a b) ts
  | _, a, ts => .ok (a, ts)

def choice : Nat → List Token → Except Fault (Expr × List Token)
  | 0, _ => .error .noOperand
  | fuel + 1, ts => do
    match ← binary 1 fuel ts with
    | (test, .op "?" :: ts) =>
      match ← whole fuel ts with
      | (yes, .op ":" :: ts) =>
        let (no, ts) ← choice fuel ts
        return (.cond test yes no, ts)
      | _ => throw .noColon
    | found => return found

def whole : Nat → List Token → Except Fault (Expr × List Token)
  | 0, _ => .error .noOperand
  | fuel + 1, .name s :: .op o :: ts =>
    match assignment? o with
    | some op => (whole fuel ts).map fun (e, ts) => (.assign s op e, ts)
    | none => choice fuel (.name s :: .op o :: ts)
  | fuel + 1, ts => choice fuel ts

end

def truth (b : Bool) : Int := if b then 1 else 0

def word (n : Int) : Nat := (n % Int.pow 2 64).toNat

def combine (op : String) (a b : Int) : Option Int :=
  match op with
  | "||" => some (truth (a != 0 || b != 0))
  | "&&" => some (truth (a != 0 && b != 0))
  | "==" => some (truth (a == b))
  | "!=" => some (truth (a != b))
  | "<" => some (truth (a < b))
  | "<=" => some (truth (a ≤ b))
  | ">" => some (truth (b < a))
  | ">=" => some (truth (b ≤ a))
  | "<<" => some (wrap (a * Int.pow 2 (b % 64).toNat))
  | ">>" => some (Int.fdiv a (Int.pow 2 (b % 64).toNat))
  | "+" => some (wrap (a + b))
  | "-" => some (wrap (a - b))
  | "*" => some (wrap (a * b))
  | "/" => if b = 0 then none else some (wrap (Int.tdiv a b))
  | "%" => if b = 0 then none else some (Int.tmod a b)
  | "|" => some (wrap (Nat.lor (word a) (word b)))
  | "^" => some (wrap (Nat.xor (word a) (word b)))
  | "&" => some (wrap (Nat.land (word a) (word b)))
  | _ => none

/-- A value as a number: blanks around it do not count, and nothing at all is zero. -/
def valueOf (s : String) : Except Fault Int :=
  let chars := s.toList.dropWhile isBlank
  let (sign, unsigned) : Int × List Char := match chars with
    | '-' :: rest => (-1, rest)
    | '+' :: rest => (1, rest)
    | rest => (1, rest)
  match number? unsigned with
  | some (n, rest) => if rest.all isBlank then .ok (sign * n) else .error (.notNumber s)
  | none => if chars = [] then .ok 0 else .error (.notNumber s)

/-- Names and their values as far as an expression has changed them, the latest first. -/
abbrev Changes := List (String × Int)

def lookUp (value : String → Option String) (changes : Changes) (name : String) :
    Except Fault Int :=
  match changes.lookup name with
  | some n => .ok n
  | none => valueOf ((value name).getD "")

def Expr.eval (value : String → Option String) (changes : Changes) :
    Expr → Except Fault (Int × Changes)
  | number n => .ok (n, changes)
  | name s => (lookUp value changes s).map (·, changes)
  | unary op e => do
    let (n, changes) ← e.eval value changes
    match op with
    | "-" => return (wrap (-n), changes)
    | "!" => return (truth (n == 0), changes)
    | "~" => return (-n - 1, changes)
    | _ => return (n, changes)
  | binary op a b => do
    let (m, changes) ← a.eval value changes
    if op = "&&" ∧ m = 0 then return (0, changes)
    if op = "||" ∧ m ≠ 0 then return (1, changes)
    let (n, changes) ← b.eval value changes
    match combine op m n with
    | some r => return (r, changes)
    | none => throw .zeroDivisor
  | cond test yes no => do
    let (n, changes) ← test.eval value changes
    if n ≠ 0 then yes.eval value changes else no.eval value changes
  | assign s op e => do
    let (n, changes) ← e.eval value changes
    match op with
    | none => return (n, (s, n) :: changes)
    | some op =>
      match combine op (← lookUp value changes s) n with
      | some r => return (r, (s, r) :: changes)
      | none => throw .zeroDivisor

def eval (value : String → Option String) (s : String) : Except Fault (Int × Changes) := do
  let ts := tokens (s.length + 1) s.toList
  match ← whole (8 * ts.length + 8) ts with
  | (e, []) => e.eval value []
  | _ => throw .moreBehind

def toInt? (s : String) : Option Int :=
  match s.toList with
  | '-' :: digits => (Text.digits? digits).map fun n => -n
  | '+' :: digits => (Text.digits? digits).map fun n => n
  | digits => (Text.digits? digits).map fun n => n

end FunctionJar.Shell.Arith
