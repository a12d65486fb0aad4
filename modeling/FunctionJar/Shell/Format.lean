import FunctionJar.Shell.Arith
import FunctionJar.Shell.Bytes

namespace FunctionJar.Shell.Format

open Text (Bytes)

def isOctal (c : Char) : Bool := '0' ≤ c && c ≤ '7'

def octal (digits : List Char) : Nat := digits.foldl (fun n c => n * 8 + (c.toNat - 48)) 0

def controls : List (Char × Nat) :=
  [('n', 10), ('t', 9), ('r', 13), ('a', 7), ('b', 8), ('e', 27), ('f', 12), ('v', 11), ('\\', 92)]

def escape (width : Nat) (s : List Char) : Bytes × List Char :=
  match s with
  | [] => ([92], [])
  | c :: rest =>
    if isOctal c then
      let digits := (s.take width).takeWhile isOctal
      ([UInt8.ofNat (octal digits)], s.drop digits.length)
    else match controls.lookup c with
      | some n => ([UInt8.ofNat n], rest)
      | none => ([92], c :: rest)

/-- A text whose escapes have a zero in front of their octal digits; the flag says that it ended
at a `c` escape, which ends all output. -/
def unescape : Nat → List Char → Bytes × Bool
  | 0, _ => ([], false)
  | _, [] => ([], false)
  | _, '\\' :: 'c' :: _ => ([], true)
  | fuel + 1, '\\' :: '0' :: rest =>
    let digits := (rest.take 3).takeWhile isOctal
    let (bytes, ended) := unescape fuel (rest.drop digits.length)
    (UInt8.ofNat (octal digits) :: bytes, ended)
  | fuel + 1, '\\' :: rest =>
    let (here, rest) := escape 3 rest
    let (bytes, ended) := unescape fuel rest
    (here ++ bytes, ended)
  | fuel + 1, c :: rest =>
    let (bytes, ended) := unescape fuel rest
    (bytesOfChar c ++ bytes, ended)

structure Layout where
  flags : List Char
  width : Nat
  precision : Option Nat

namespace Layout

def has (l : Layout) (flag : Char) : Bool := l.flags.contains flag

def padded (l : Layout) (s : Bytes) : Bytes :=
  let fill := List.replicate (l.width - s.length) (32 : UInt8)
  if l.has '-' then s ++ fill else fill ++ s

/-- Digits behind a sign or the mark of a base. Zeros fill the width up only without a precision. -/
def digits (l : Layout) (lead digits : String) : Bytes :=
  match l.precision with
  | some 0 => l.padded (bytesOf (if digits = "0" then lead else lead ++ digits))
  | some n => l.padded (bytesOf (lead ++ Text.padLeft n '0' digits))
  | none =>
    if l.has '0' && !l.has '-' then
      bytesOf (lead ++ Text.padLeft (l.width - lead.length) '0' digits)
    else l.padded (bytesOf (lead ++ digits))

def signed (l : Layout) (n : Int) : Bytes :=
  let sign := if n < 0 then "-" else if l.has '+' then "+" else if l.has ' ' then " " else ""
  l.digits sign (toString n.natAbs)

def unsigned (l : Layout) (kind : Char) (n : Nat) : Bytes :=
  let inBase (base : Nat) : String := String.ofList (Nat.toDigits base n)
  let marked := l.has '#' && n != 0
  match kind with
  | 'o' => l.digits (if marked then "0" else "") (inBase 8)
  | 'x' => l.digits (if marked then "0x" else "") (inBase 16)
  | 'X' => l.digits (if marked then "0X" else "") ((inBase 16).map Char.toUpper)
  | _ => l.digits "" (inBase 10)

end Layout

/-- The number that a text begins with, what is behind it, and whether it is in the range of numbers
of 64 bits. A base other than ten shows in front of it. -/
def scan (isSigned : Bool) (s : String) : Int × List Char × Bool :=
  let chars := s.toList.dropWhile Arith.isBlank
  let (isNegative, body) := match chars with
    | '-' :: rest => (true, rest)
    | '+' :: rest => (false, rest)
    | rest => (false, rest)
  let (base, body) := match body with
    | '0' :: x :: rest =>
      if (x = 'x' ∨ x = 'X') ∧ (Arith.digits 16 rest).1 ≠ [] then (16, rest)
      else (8, '0' :: x :: rest)
    | body => (10, body)
  match Arith.digits base body with
  | ([], _) => (0, s.toList, true)
  | (ds, rest) =>
    let n := ds.foldl (fun n d => n * base + d) 0
    let value : Int := if isNegative then -n else n
    if isSigned then
      if value < -Int.pow 2 63 then (-Int.pow 2 63, rest, false)
      else if Int.pow 2 63 ≤ value then (Int.pow 2 63 - 1, rest, false)
      else (value, rest, true)
    else if Nat.pow 2 64 ≤ n then (Int.pow 2 64 - 1, rest, false)
    else (value % Int.pow 2 64, rest, true)

inductive Complaint
  | outOfRange (arg : String)
  | notNumber (arg : String)
  | unfinished (arg : String)
  deriving DecidableEq, Repr

def Complaint.text : Complaint → String
  | outOfRange arg => s!"{arg}: Numerical result out of range"
  | notNumber arg => s!"{arg}: expected numeric value"
  | unfinished arg => s!"{arg}: not completely converted"

inductive Fault
  | unknown (directive : String)
  | unfinished
  deriving DecidableEq, Repr

def Fault.text : Fault → String
  | unknown directive => s!"{directive}: invalid directive"
  | unfinished => "missing format character"

/-- Output under way: the arguments left, what is written and what is complained about, both the
last piece first, and why it ends if it does. -/
structure State where
  args : List String
  out : List Bytes
  complaints : List Complaint
  fault : Option Fault
  ended : Bool

namespace State

def write (st : State) (bytes : Bytes) : State := { st with out := bytes :: st.out }

def complain (st : State) (c : Complaint) : State := { st with complaints := c :: st.complaints }

def isOver (st : State) : Bool := st.ended || st.fault.isSome

def dropArg (st : State) : State := { st with args := st.args.tail }

def number (isSigned : Bool) (st : State) : Int × State :=
  match st.args with
  | [] => (0, st)
  | arg :: _ =>
    let st := st.dropArg
    match bytesOf arg with
    | 34 :: b :: _ | 39 :: b :: _ => (b.toNat, st)
    | [34] | [39] => (0, st)
    | _ =>
      match scan isSigned arg with
      | (n, [], true) => (n, st)
      | (n, [], false) => (n, st.complain (.outOfRange arg))
      | (n, rest, _) =>
        if rest.length = arg.length then (n, st.complain (.notNumber arg))
        else (n, st.complain (.unfinished arg))

def convert (l : Layout) (kind : Char) (directive : String) (st : State) : State :=
  let arg := st.args.headD ""
  match kind with
  | 's' =>
    let bytes := bytesOf arg
    st.dropArg.write (l.padded ((l.precision.map bytes.take).getD bytes))
  | 'b' =>
    let (bytes, ended) := unescape (arg.length + 1) arg.toList
    { st.dropArg.write (l.padded ((l.precision.map bytes.take).getD bytes)) with ended := ended }
  | 'c' => st.dropArg.write (l.padded [(bytesOf arg).headD 0])
  | 'd' | 'i' =>
    let (n, st) := st.number true
    st.write (l.signed n)
  | 'o' | 'u' | 'x' | 'X' =>
    let (n, st) := st.number false
    st.write (l.unsigned kind n.toNat)
  | _ => { st with fault := some (.unknown directive) }

def size (s : List Char) (st : State) : Option Int × List Char × State :=
  match s with
  | '*' :: rest =>
    let (n, st) := st.number true
    (some n, rest, st)
  | s =>
    let digits := s.takeWhile Char.isDigit
    (if digits = [] then none else some (Text.natOfDigits digits : Nat), s.drop digits.length, st)

end State

def pass : Nat → List Char → State → State
  | 0, _, st => st
  | _, [], st => st
  | fuel + 1, '%' :: '%' :: rest, st => pass fuel rest (st.write [37])
  | fuel + 1, '%' :: s, st =>
    let flags := s.takeWhile fun c => "#-+ 0".toList.contains c
    let (width, rest, st) := st.size (s.drop flags.length)
    let (precision, rest, st) : Option Int × List Char × State := match rest with
      | '.' :: rest =>
        let (n, rest, st) := st.size rest
        (some (n.getD 0), rest, st)
      | rest => (none, rest, st)
    match rest with
    | [] => { st with fault := some .unfinished }
    | kind :: rest =>
      let width := width.getD 0
      let flags := if width < 0 then '-' :: flags else flags
      let l : Layout := ⟨flags, width.natAbs, (precision.filter (0 ≤ ·)).map Int.toNat⟩
      let directive := String.ofList ('%' :: s.take (s.length - rest.length))
      let st := st.convert l kind directive
      if st.isOver then st else pass fuel rest st
  | fuel + 1, '\\' :: rest, st =>
    let (bytes, rest) := escape 3 rest
    pass fuel rest (st.write bytes)
  | fuel + 1, c :: rest, st => pass fuel rest (st.write (bytesOfChar c))

def passes (format : List Char) : Nat → State → State
  | 0, st => st
  | fuel + 1, st =>
    let after := pass (format.length + 1) format st
    if after.isOver ∨ after.args = [] ∨ after.args.length = st.args.length then after
    else passes format fuel after

def printf (format : String) (args : List String) : State :=
  passes format.toList (args.length + 1) ⟨args, [], [], none, false⟩

def State.bytes (st : State) : Bytes := st.out.reverse.flatten

end FunctionJar.Shell.Format
