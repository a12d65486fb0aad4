import FunctionJar.Shell.Arith
import FunctionJar.Shell.Utility.Operand

namespace FunctionJar.Shell.Utility

inductive Lexeme
  | nothing
  | operand
  | unary (op : String)
  | binary (op : String)
  | not
  | and
  | or
  | leftParen
  | rightParen
  deriving DecidableEq, Repr

namespace Lexeme

def unaries : List String :=
  ["-r", "-w", "-x", "-e", "-f", "-d", "-c", "-b", "-p", "-u", "-g", "-k", "-s", "-t", "-z", "-n",
    "-h", "-L", "-O", "-G", "-S"]

def binaries : List String :=
  ["=", "!=", "<", ">", "-eq", "-ne", "-ge", "-gt", "-le", "-lt", "-nt", "-ot", "-ef"]

def ofText (s : String) : Lexeme :=
  if unaries.contains s then unary s
  else if binaries.contains s then binary s
  else match s with
    | "!" => not
    | "-a" => and
    | "-o" => or
    | "(" => leftParen
    | ")" => rightParen
    | _ => operand

def isBinary : Lexeme → Bool
  | binary _ => true
  | _ => false

/-- What the first argument is. One with the name of an operator that takes what is behind it is a
text if there is nothing there, or if that is an operator of two. -/
def first : List String → Lexeme
  | [] => nothing
  | s :: rest =>
    match ofText s, rest with
    | unary _, [] | leftParen, [] => operand
    | unary op, next :: _ :: _ => if (ofText next).isBinary then operand else unary op
    | l, _ => l

end Lexeme

def holds (p : Process) (op operand : String) : Except String Bool :=
  let node := (p.disk.node (p.path operand)).toOption
  match op with
  | "-n" => .ok (operand != "")
  | "-z" => .ok (operand == "")
  | "-e" | "-r" | "-w" | "-O" | "-G" => .ok node.isSome
  | "-f" => .ok (node.any Node.isFile)
  | "-d" => .ok (node.any Node.isFolder)
  | "-x" => .ok (node.any Node.mayRun)
  | "-h" | "-L" => .ok ((p.disk.entry (p.path operand)).toOption.any Node.isLink)
  | "-s" => .ok (node.any fun n => !n.isBlank)
  | "-t" => if (number? operand).isSome then .ok false else .error s!"Illegal number: {operand}"
  | _ => .ok false
where
  number? (s : String) : Option Int := Arith.toInt? (Text.trimText s)

def operandNumber (s : String) : Except String Int :=
  match (Arith.toInt? (Text.trimText s)).filter fun n => -Int.pow 2 63 ≤ n ∧ n < Int.pow 2 63 with
  | some n => .ok n
  | none => .error s!"Illegal number: {s}"

def compares (p : Process) (a op b : String) : Except String Bool := do
  match op with
  | "=" => return a == b
  | "!=" => return a != b
  | "<" => return decide (a < b)
  | ">" => return decide (b < a)
  | "-ef" =>
    return match p.disk.resolve (p.path a), p.disk.resolve (p.path b) with
      | .ok x, .ok y => x == y && p.disk.has (p.path a)
      | _, _ => false
  | "-nt" | "-ot" => return false
  | op =>
    let m ← operandNumber a
    let n ← operandNumber b
    match op with
    | "-eq" => return m == n
    | "-ne" => return m != n
    | "-lt" => return decide (m < n)
    | "-le" => return decide (m ≤ n)
    | "-gt" => return decide (n < m)
    | _ => return decide (n ≤ m)

mutual

/-- Conditions of which one is to hold. What is left begins with the last argument that counts. -/
def someOf (p : Process) : Nat → Lexeme → List String → Except String (Bool × List String)
  | 0, _, args => .ok (false, args)
  | fuel + 1, l, args => do
    let (here, args) ← allOf p fuel l args
    match Lexeme.first (args.drop 1) with
    | .or =>
      let (more, args) ← someOf p fuel (Lexeme.first (args.drop 2)) (args.drop 2)
      return (here || more, args)
    | _ => return (here, args)

def allOf (p : Process) : Nat → Lexeme → List String → Except String (Bool × List String)
  | 0, _, args => .ok (false, args)
  | fuel + 1, l, args => do
    let (here, args) ← oneOf p fuel l args
    match Lexeme.first (args.drop 1) with
    | .and =>
      let (more, args) ← allOf p fuel (Lexeme.first (args.drop 2)) (args.drop 2)
      return (here && more, args)
    | _ => return (here, args)

def oneOf (p : Process) : Nat → Lexeme → List String → Except String (Bool × List String)
  | 0, _, args => .ok (false, args)
  | fuel + 1, .not, args => do
    let l := Lexeme.first (args.drop 1)
    let (inner, args) ← oneOf p fuel l (if l = .nothing then args else args.drop 1)
    return (!inner, args)
  | _, .nothing, args => .ok (false, args)
  | fuel + 1, .leftParen, args => do
    let l := Lexeme.first (args.drop 1)
    if l = .rightParen then return (false, args.drop 1)
    let (inner, args) ← someOf p fuel l (args.drop 1)
    if Lexeme.first (args.drop 1) ≠ .rightParen then throw "closing paren expected"
    return (inner, args.drop 1)
  | _, .unary op, args => do
    match args.drop 1 with
    | [] => throw s!"{op}: argument expected"
    | operand :: rest => return (← holds p op operand, operand :: rest)
  | _, _, args => do
    match Lexeme.first (args.drop 1), args with
    | .binary op, a :: _ :: b :: rest => return (← compares p a op b, b :: rest)
    | .binary op, _ => throw s!"{op}: argument expected"
    | _, args => return (args.headD "" != "", args)

end

/-- The truth of a condition. Three arguments with an operator of two in the middle, and those in
parentheses, are told by their number. -/
def condition (p : Process) (args : List String) : Except String Bool := do
  let isComparison := args.length = 3 && (Lexeme.ofText (args[1]?.getD "")).isBinary
  let isEnclosed := (args.length = 3 || args.length = 4) && args.head? = some "("
    && args.getLast? = some ")"
  let args := if isEnclosed && !isComparison then (args.drop 1).dropLast else args
  let l := if isComparison then .operand else Lexeme.first args
  let (truth, left) ← someOf p (4 * args.length + 8) l args
  match left with
  | a :: _ :: _ => throw (if a = "" then "unexpected operator" else s!"{a}: unexpected operator")
  | _ => return truth

def test (name : String) (args : List String) (p : Process) : Process :=
  if args = [] then p.withStatus 1
  else match condition p args with
    | .ok true => p.withStatus 0
    | .ok false => p.withStatus 1
    | .error text => p.protest 2 s!"{name}: {text}"

def plainReason (text : String) (args : List String) : String :=
  let number := "Illegal number: "
  if text.startsWith number then
    s!"invalid integer {quotedText (text.drop number.length).toString}"
  else match if args.head? = some "!" then args.tail else args with
    | [op, operand] =>
      if op.length = 2 ∧ op.startsWith "-" then s!"{quotedText op}: unary operator expected"
      else s!"missing argument after {quotedText operand}"
    | [_, op, _] => s!"{quotedText op}: binary operator expected"
    | _ :: second :: _ => s!"extra argument {quotedText second}"
    | rest => String.join (rest.map quotedText)

def plainTest (name : String) (args : List String) (p : Process) : Process :=
  if args = [] then p.withStatus 1
  else match condition p args with
    | .ok true => p.withStatus 0
    | .ok false => p.withStatus 1
    | .error text => p.fail 2 s!"{name}: {plainReason text args}"

def plainBracketTest (args : List String) (p : Process) : Process :=
  if args.getLast? = some "]" then plainTest "[" args.dropLast p
  else p.fail 2 "[: missing ']'"

def bracketTest (args : List String) (p : Process) : Process :=
  if args.getLast? = some "]" then test "[" args.dropLast p
  else p.protest 2 "[: missing ]"

end FunctionJar.Shell.Utility
