import FunctionJar.Shell.Regex
import FunctionJar.Shell.Utility.Operand

namespace FunctionJar.Shell.Utility.Calculate

def level? : String → Option Nat
  | "|" => some 1
  | "&" => some 2
  | "=" | "==" | "!=" | "<" | "<=" | ">" | ">=" => some 3
  | "+" | "-" => some 4
  | "*" | "/" | "%" => some 5
  | ":" => some 6
  | _ => none

def integer? (s : String) : Option Int :=
  match s.toList with
  | '-' :: digits => (Text.digits? digits).map fun n => -n
  | digits => (Text.digits? digits).map fun n => n

def isNothing (s : String) : Bool := s = "" || integer? s = some 0

def order (a b : String) : Ordering :=
  match integer? a, integer? b with
  | some m, some n => compareOfLessAndEq m n
  | _, _ => compareOfLessAndEq a b

/-- How much of a text an expression matches from its start, or what its group matches. -/
def prefixMatch (s pattern : String) : Except String String := do
  let re ← (Regex.parse false (String.ofList (bytewise pattern))).mapError (·.text)
  let chars := bytewise s
  match re.longest? chars chars with
  | none => return if re.groups ≠ 0 then "" else "0"
  | some m =>
    if re.groups = 0 then return toString (chars.length - m.rest.length)
    else
      let found := (m.groups.lookup 1).getD []
      return String.ofList (textOf (ofByteChars found))

def combine (op a b : String) : Except String String :=
  let compared (test : Ordering → Bool) : Except String String :=
    .ok (if test (order a b) then "1" else "0")
  let arith (f : Int → Int → Except String Int) : Except String String :=
    match integer? a, integer? b with
    | some m, some n => (f m n).map toString
    | _, _ => .error "non-integer argument"
  let divided (f : Int → Int → Int) : Except String String :=
    arith fun m n => if n = 0 then .error "division by zero" else .ok (f m n)
  match op with
  | "|" => .ok (if !isNothing a then a else if isNothing b then "0" else b)
  | "&" => .ok (if isNothing a || isNothing b then "0" else a)
  | "=" | "==" => compared Ordering.isEq
  | "!=" => compared fun o => !o.isEq
  | "<" => compared Ordering.isLT
  | "<=" => compared Ordering.isLE
  | ">" => compared Ordering.isGT
  | ">=" => compared Ordering.isGE
  | "+" => arith fun m n => .ok (m + n)
  | "-" => arith fun m n => .ok (m - n)
  | "*" => arith fun m n => .ok (m * n)
  | "/" => divided Int.tdiv
  | "%" => divided Int.tmod
  | _ => prefixMatch a b

/-- What `op` makes of two values, unless the result is not needed. -/
def combineIf (isNeeded : Bool) (op a b : String) : Except String String :=
  if isNeeded then combine op a b else .ok "0"

def part (s first count : String) : String :=
  match integer? first, integer? count with
  | some first, some count =>
    if first < 1 ∨ count < 1 then ""
    else String.ofList (((s.toList).drop (first.toNat - 1)).take count.toNat)
  | _, _ => ""

def place (s set : String) : String :=
  toString ((s.toList.findIdx? set.toList.contains).elim 0 (· + 1))

def missing (args : List String) : String :=
  "syntax error: missing argument after " ++ quotedText (args.getLast?.getD "")

structure Value where
  text : String
  rest : List String

mutual

def operand (args : List String) (isNeeded : Bool) : Nat → List String → Except String Value
  | 0, _ | _, [] => .error (missing args)
  | fuel + 1, first :: rest =>
    let value := operand args isNeeded fuel
    match first with
    | "(" =>
      match expression args isNeeded 1 fuel rest with
      | .error e => .error e
      | .ok ⟨v, ")" :: rest⟩ => .ok ⟨v, rest⟩
      | .ok ⟨_, []⟩ =>
        .error ("syntax error: expecting ')' after " ++ quotedText (args.getLast?.getD ""))
      | .ok ⟨_, other :: _⟩ =>
        .error s!"syntax error: expecting ')' instead of {quotedText other}"
    | ")" => .error "syntax error: unexpected ')'"
    | "+" =>
      match rest with
      | s :: rest => .ok ⟨s, rest⟩
      | [] => .ok ⟨"+", []⟩
    | "length" => do
      let s ← value rest
      return ⟨toString (bytesOf s.text).length, s.rest⟩
    | "match" => do
      let s ← value rest
      let pattern ← value s.rest
      return ⟨← if isNeeded then prefixMatch s.text pattern.text else pure "0", pattern.rest⟩
    | "index" => do
      let s ← value rest
      let set ← value s.rest
      return ⟨place s.text set.text, set.rest⟩
    | "substr" => do
      let s ← value rest
      let first ← value s.rest
      let count ← value first.rest
      return ⟨part s.text first.text count.text, count.rest⟩
    | s => .ok ⟨s, rest⟩

def expression (args : List String) (isNeeded : Bool) (least : Nat) :
    Nat → List String → Except String Value
  | 0, _ => .error (missing args)
  | fuel + 1, rest =>
    match operand args isNeeded fuel rest with
    | .ok v => more args isNeeded least fuel v
    | .error e => .error e

def more (args : List String) (isNeeded : Bool) (least : Nat) : Nat → Value → Except String Value
  | 0, _ => .error (missing args)
  | _, ⟨a, []⟩ => .ok ⟨a, []⟩
  | fuel + 1, ⟨a, op :: rest⟩ =>
    match level? op with
    | none => .ok ⟨a, op :: rest⟩
    | some l =>
      if l < least then .ok ⟨a, op :: rest⟩
      else
        let isSettled := op = "|" ∧ !isNothing a ∨ op = "&" ∧ isNothing a
        match expression args (isNeeded && !isSettled) (l + 1) fuel rest with
        | .error e => .error e
        | .ok b =>
          match combineIf isNeeded op a b.text with
          | .ok v => more args isNeeded least fuel ⟨v, b.rest⟩
          | .error e => .error e

end

def evaluate (args : List String) : Except String String := do
  let v ← expression args true 1 (4 * args.length + 4) args
  match v.rest with
  | [] => return v.text
  | other :: _ => throw s!"syntax error: unexpected argument {quotedText other}"

end Calculate

def expr (args : List String) (p : Process) : Process :=
  let args := if args.head? = some "--" then args.tail else args
  if args = [] then
    p.fail 2 "expr: missing operand\nTry 'expr --help' for more information."
  else match Calculate.evaluate args with
    | .ok v => (p.printLine v).withStatus (if Calculate.isNothing v then 1 else 0)
    | .error text => p.fail 2 s!"expr: {text}"

end FunctionJar.Shell.Utility
