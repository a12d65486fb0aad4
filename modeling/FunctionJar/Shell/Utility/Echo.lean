import FunctionJar.Shell.Format
import FunctionJar.Shell.Utility.Operand

namespace FunctionJar.Shell.Utility

open Text (Bytes)

def echo (args : List String) (p : Process) : Process :=
  let (quiet, args) := match args with
    | "-n" :: rest => (true, rest)
    | args => (false, args)
  let s := Text.join " " args
  let (bytes, ended) := Format.unescape (s.length + 1) s.toList
  (p.print (if quiet ∨ ended then bytes else bytes ++ [10])).withStatus 0

/-- The program of that name, which reads escapes only if it is told to. -/
def plainEcho (args : List String) (p : Process) : Process :=
  let isOption (arg : String) : Bool := match arg.toList with
    | '-' :: c :: cs => (c :: cs).all fun c => "neE".toList.contains c
    | _ => false
  let letters := (args.takeWhile isOption).flatMap String.toList
  let s := Text.join " " (args.dropWhile isOption)
  let reads := (letters.filter fun c => c == 'e' || c == 'E').getLast? == some 'e'
  let (bytes, ended) := if reads then Format.unescape (s.length + 1) s.toList
    else (bytesOf s, false)
  (p.print (if letters.contains 'n' ∨ ended then bytes else bytes ++ [10])).withStatus 0

def printf (args : List String) (p : Process) : Process :=
  let print (format : String) (args : List String) : Process :=
    let st := Format.printf format args
    let p := st.complaints.reverse.foldl (fun p c => p.protest 1 s!"printf: {c.text}")
      (p.withStatus 0)
    let p := match st.fault with
      | some fault => p.protest 2 s!"printf: {fault.text}"
      | none => p
    p.print st.bytes
  match args with
  | [] | ["--"] => p.protest 2 "printf: usage: printf format [arg ...]"
  | "--" :: format :: rest => print format rest
  | format :: rest =>
    match format.toList with
    | '-' :: c :: _ => p.protest 2 s!"printf: Illegal option -{c}"
    | _ => print format rest

def plainComplaint : Format.Complaint → String
  | .outOfRange arg => s!"{quotedText arg}: Numerical result out of range"
  | .notNumber arg => s!"{quotedText arg}: expected a numeric value"
  | .unfinished arg => s!"{quotedText arg}: value not completely converted"

def plainFault : Format.Fault → String
  | .unknown directive => s!"{directive}: invalid conversion specification"
  | .unfinished => "%: invalid conversion specification"

def plainPrintf (args : List String) (p : Process) : Process :=
  match if args.head? = some "--" then args.drop 1 else args with
  | [] => p.fail 1 "printf: missing operand\nTry 'printf --help' for more information."
  | format :: rest =>
    let st := Format.printf format rest
    let p := st.complaints.reverse.foldl (fun p c => p.fail 1 s!"printf: {plainComplaint c}")
      (p.withStatus 0)
    let p := match st.fault with
      | some fault => p.fail 1 s!"printf: {plainFault fault}"
      | none => p
    let p := p.print st.bytes
    match st.args with
    | [] => p
    | arg :: _ =>
      if st.isOver then p
      else p.complain
        s!"printf: warning: ignoring excess arguments, starting with {quotedText arg}"

def yes (args : List String) (p : Process) : Process :=
  (Usage.plain "yes" "" "" []).run args p fun g =>
    let line := bytesOf ((if g.operands = [] then "y" else Text.join " " g.operands) ++ "\n")
    p.print ((List.replicate (plenty / line.length + 1) line).flatten)

def milliseconds? (s : String) : Option Nat := do
  let (digits, factor) := match s.toList.getLast? with
    | some 's' => (s.toList.dropLast, 1)
    | some 'm' => (s.toList.dropLast, 60)
    | some 'h' => (s.toList.dropLast, 3600)
    | some 'd' => (s.toList.dropLast, 86400)
    | _ => (s.toList, 1)
  match Text.splitAt '.' (Text.dropPlus (Text.trimStart digits)) with
  | [whole] => return (← Text.digits? whole) * 1000 * factor
  | [whole, fraction] =>
    if whole = [] ∧ fraction = [] then none
    let whole := if whole = [] then ['0'] else whole
    let fraction := (fraction ++ ['0', '0', '0']).take 3
    return ((← Text.digits? whole) * 1000 + (← Text.digits? fraction)) * factor
  | _ => none

def sleep (args : List String) (p : Process) : Process :=
  let u := Usage.plain "sleep" "" "" []
  u.run args p fun g =>
    let isEndless (s : String) : Bool := ["inf", "infinity"].contains (Text.lower s)
    let bad := g.operands.filter fun s => (milliseconds? s).isNone && !isEndless s
    match g.operands, bad with
    | [], _ => u.refuse p "missing operand"
    | _, first :: rest =>
      let p := (first :: rest).dropLast.foldl
        (fun p s => p.complain s!"sleep: invalid time interval {quotedText s}") p
      u.refuse p s!"invalid time interval {quotedText (rest.getLastD first)}"
    | times, [] =>
      if times.any isEndless then { p with ended := some .hangs }
      else { p with trace := p.trace.sleep (total id (times.filterMap milliseconds?)), status := 0 }

/-- A decimal number as the digits of a whole one, and how many of them are behind the point. -/
structure Decimal where
  value : Int
  places : Nat

namespace Decimal

def ofText? (s : String) : Option Decimal := do
  let chars := Text.trimStart s.toList
  let (sign, chars) : Int × List Char := match chars with
    | '-' :: rest => (-1, rest)
    | '+' :: rest => (1, rest)
    | rest => (1, rest)
  match Text.splitAt '.' chars with
  | [whole] => return ⟨sign * (← Text.digits? whole), 0⟩
  | [whole, fraction] => return ⟨sign * (← Text.digits? (whole ++ fraction)), fraction.length⟩
  | _ => none

def scaled (d : Decimal) (places : Nat) : Int := d.value * Int.pow 10 (places - d.places)

def text (value : Int) (places width : Nat) : String :=
  let digits := Text.padLeft (places + 1) '0' (toString value.natAbs)
  let whole := String.ofList (digits.toList.take (digits.length - places))
  let fraction := String.ofList (digits.toList.drop (digits.length - places))
  let body := if places = 0 then whole else whole ++ "." ++ fraction
  let sign := if value < 0 then "-" else ""
  sign ++ Text.padLeft (width - sign.length) '0' body

end Decimal

def stepsTo (first step last : Int) : List Int :=
  let count := if step = 0 then 0 else Int.toNat (Int.fdiv (last - first) step + 1)
  (List.range count).map fun (n : Nat) => first + n * step

def seqUsage : Usage :=
  { Usage.plain "seq" "w" "fs" [("separator", 's'), ("equal-width", 'w'), ("format", 'f')] with
    inOrder := true }

def guarded : List String → List String
  | [] => []
  | arg :: rest =>
    match arg.toList with
    | ['-', '-'] => arg :: rest
    | '-' :: c :: _ => if c.isDigit ∨ c = '.' then "--" :: arg :: rest else arg :: guarded rest
    | _ => arg :: rest

def seq (args : List String) (p : Process) : Process :=
  let u := seqUsage
  u.run (guarded args) p fun g =>
    let bad := g.operands.find? fun s => (Decimal.ofText? s).isNone
    match g.operands, bad with
    | [], _ => u.refuse p "missing operand"
    | _ :: _ :: _ :: fourth :: _, _ => u.refuse p s!"extra operand {quotedText fourth}"
    | _, some s => u.refuse p s!"invalid floating point argument: {quotedText s}"
    | operands, none =>
      let numbers := operands.filterMap Decimal.ofText?
      let (first, step, last) : Decimal × Decimal × Decimal := match numbers with
        | [a, b] => (a, ⟨1, 0⟩, b)
        | [a, step, b] => (a, step, b)
        | ds => (⟨1, 0⟩, ⟨1, 0⟩, ds.headD ⟨0, 0⟩)
      if step.value = 0 then
        let shown := quotedText (operands[1]?.getD "")
        u.refuse p s!"invalid Zero increment value: {shown}"
      else
        let places := max first.places step.places
        let fine := max places last.places
        let shift : Int := Int.pow 10 (fine - places)
        let numbers := (stepsTo (first.scaled fine) (step.scaled fine) (last.scaled fine)).map
          fun n => Int.tdiv n shift
        let widths := [first.scaled places, Int.fdiv (last.scaled fine) shift].map fun n =>
          (Decimal.text n places 0).length
        let width := if g.has 'w' then (widths.max?).getD 0 else 0
        let texts := numbers.map fun n =>
          let plain := Decimal.text n places width
          match g.value? 'f' with
          | some format =>
            let asText := String.ofList (format.toList.map fun c =>
              if "gfe".toList.contains c then (if places = 0 then 'd' else 's') else c)
            String.ofList (textOf (Format.printf asText [plain]).bytes)
          | none => plain
        if texts = [] then p.withStatus 0
        else
          (p.print (bytesOf (Text.join ((g.value? 's').getD "\n") texts ++ "\n"))).withStatus 0

end FunctionJar.Shell.Utility
