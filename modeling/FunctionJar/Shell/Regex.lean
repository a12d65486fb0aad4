import FunctionJar.Shell.Pattern
import FunctionJar.Text.Decimal

namespace FunctionJar.Shell

def isWordChar (c : Char) : Bool := c.isAlphanum || c == '_'

inductive Spot
  | lineStart
  | lineEnd
  | wordStart
  | wordEnd
  | wordEdge
  | noEdge
  deriving DecidableEq, Repr

def Spot.isBetween (s : Spot) (before after : Option Char) : Bool :=
  let left := before.any isWordChar
  let right := after.any isWordChar
  match s with
  | lineStart => before.isNone
  | lineEnd => after.isNone
  | wordStart => !left && right
  | wordEnd => left && !right
  | wordEdge => left != right
  | noEdge => left == right

inductive Regex
  | empty
  | set (negated : Bool) (chars : List (Char × Char))
  | spot (s : Spot)
  | seq (first second : Regex)
  | either (first second : Regex)
  | many (least : Nat) (most : Option Nat) (inner : Regex)
  | group (number : Nat) (inner : Regex)
  | again (number : Nat)
  deriving DecidableEq, Repr

structure Matching where
  rest : List Char
  groups : List (Nat × List Char)
  deriving DecidableEq, Repr

namespace Regex

def literal (c : Char) : Regex := set false [(c, c)]

def any : Regex := set true []

def word (negated : Bool) : Regex :=
  set negated [('0', '9'), ('A', 'Z'), ('_', '_'), ('a', 'z')]

def space (negated : Bool) : Regex := set negated [('\t', '\r'), (' ', ' ')]

/-- What becomes of a matching when `step` is done at most so many times, the longest way first. -/
def closure (step : Matching → List Matching) : Nat → Matching → List Matching
  | 0, m => [m]
  | fuel + 1, m =>
    ((step m).filter fun n => n.rest.length < m.rest.length).flatMap (closure step fuel) ++ [m]

def afterSome (step : Matching → List Matching) (count : Nat) (m : Matching) : List Matching :=
  (List.range count).foldl (fun ms _ => (ms.flatMap step).eraseDups) [m]

def before? (line rest : List Char) : Option Char :=
  if rest.length < line.length then line.drop (line.length - rest.length - 1) |>.head? else none

def ways (line : List Char) : Regex → Matching → List Matching
  | empty, m => [m]
  | set negated chars, m =>
    match m.rest with
    | [] => []
    | c :: rest => if inSet chars c != negated then [{ m with rest }] else []
  | spot s, m => if s.isBetween (before? line m.rest) m.rest.head? then [m] else []
  | seq a b, m => ((ways line a m).flatMap (ways line b)).eraseDups
  | either a b, m => ways line a m ++ ways line b m
  | many least most a, m =>
    let more (m : Matching) : List Matching :=
      closure (ways line a) (most.elim m.rest.length (· - least)) m
    ((afterSome (ways line a) least m).flatMap more).eraseDups
  | group number a, m => (ways line a m).map fun n =>
    { n with groups :=
      (number, m.rest.take (m.rest.length - n.rest.length)) :: n.groups }
  | again number, m =>
    match m.groups.lookup number with
    | some text =>
      if text.isPrefixOf m.rest then [{ m with rest := m.rest.drop text.length }] else []
    | none => []

def longest? (line : List Char) (re : Regex) (s : List Char) : Option Matching :=
  (ways line re ⟨s, []⟩).foldl (fun best m =>
    match best with
    | none => some m
    | some b => if m.rest.length < b.rest.length then some m else some b) none

/-- The first place at or behind the start of `s` where the expression matches: what stands before
it, and the longest matching there. -/
def search? (line : List Char) (re : Regex) (s : List Char) : Option (List Char × Matching) :=
  (List.range (s.length + 1)).findSome? fun n =>
    (longest? line re (s.drop n)).map fun m => (s.take n, m)

def swapped (range : Char × Char) : List (Char × Char) :=
  let shifted (low high : Char) (shift : Char → Char) : List (Char × Char) :=
    let first := if range.1 < low then low else range.1
    let last := if high < range.2 then high else range.2
    if first ≤ last then [(shift first, shift last)] else []
  shifted 'A' 'Z' Char.toLower ++ shifted 'a' 'z' Char.toUpper

def ignoringCase : Regex → Regex
  | set negated chars => set negated (chars ++ chars.flatMap swapped)
  | seq a b => seq (ignoringCase a) (ignoringCase b)
  | either a b => either (ignoringCase a) (ignoringCase b)
  | many least most a => many least most (ignoringCase a)
  | group number a => group number (ignoringCase a)
  | re => re

inductive Fault
  | unmatchedBracket
  | unmatchedOpening
  | unmatchedClosing
  | unmatchedInterval
  | interval
  | backslash
  | range
  | className
  | reference
  | nothing
  deriving DecidableEq, Repr

def Fault.text : Fault → String
  | unmatchedBracket => "Unmatched [, [^, [:, [., or [="
  | unmatchedOpening => "Unmatched ( or \\("
  | unmatchedClosing => "Unmatched ) or \\)"
  | unmatchedInterval => "Unmatched \\\x7b"
  | interval => "Invalid content of \\\x7b\\\x7d"
  | backslash => "Trailing backslash"
  | range => "Invalid range end"
  | className => "Invalid character class name"
  | reference => "Invalid back reference"
  | nothing => "Invalid regular expression"

inductive Sign
  | item (re : Regex)
  | times (least : Nat) (most : Option Nat)
  | opening (number : Nat)
  | closing
  | bar
  deriving DecidableEq, Repr

/-- How far the spelling has been read: whether nothing stands before this place in its branch, the
groups that are open, and how many there have been. A strict reading takes no sign literally for
having no meaning where it stands. -/
structure Reading where
  isStrict : Bool
  isFresh : Bool
  opened : List Nat
  count : Nat
  deriving DecidableEq, Repr

def bracket (s : List Char) : Except Fault (Sign × List Char) :=
  let (negated, s) := match s with
    | '^' :: rest => (true, rest)
    | s => (false, s)
  match s, bracket? (s.map fun c => ⟨c, false⟩) with
  | [], _ => .error .nothing
  | s, some (chars, rest) =>
    let body := String.ofList (s.take (s.length - rest.length))
    if chars.any fun r => r.2 < r.1 then .error .range
    else if chars.contains ('[', '[') ∧ (body.splitOn "[:").length ≠ 1 ∧
        (body.splitOn ":]").length ≠ 1 then
      .error .className
    else .ok (.item (set negated chars), rest.map (·.char))
  | _, none => .error .unmatchedBracket

def interval? (extended : Bool) (s : List Char) : Except Fault (Sign × List Char) :=
  let digits := s.takeWhile Char.isDigit
  let rest := s.drop digits.length
  let least := Text.natOfDigits digits
  let (most, rest) : Option Nat × List Char := match rest with
    | ',' :: rest =>
      let last := rest.takeWhile Char.isDigit
      (if last = [] then none else some (Text.natOfDigits last), rest.drop last.length)
    | rest => (some least, rest)
  let sign : Except Fault Sign :=
    if (most.any (· < least)) ∨ 32767 < least ∨ most.any (32767 < ·) then .error .interval
    else .ok (.times least most)
  match extended, rest with
  | _, [] => .error .unmatchedInterval
  | true, '\x7d' :: rest | false, '\\' :: '\x7d' :: rest =>
    if digits = [] ∧ most = some 0 then .error .interval
    else sign.map (·, rest)
  | _, _ => .error .interval

def escape? (r : Reading) (c : Char) : Except Fault Regex :=
  match c with
  | 'w' => .ok (word false)
  | 'W' => .ok (word true)
  | 's' => .ok (space false)
  | 'S' => .ok (space true)
  | 'b' => .ok (spot .wordEdge)
  | 'B' => .ok (spot .noEdge)
  | '<' => .ok (spot .wordStart)
  | '>' => .ok (spot .wordEnd)
  | '\x60' => .ok (spot .lineStart)
  | '\'' => .ok (spot .lineEnd)
  | c =>
    let n := c.toNat - 48
    if !c.isDigit ∨ c = '0' then .ok (literal c)
    else if n ≤ r.count ∧ n ∉ r.opened then .ok (again n)
    else .error .reference

def endsBranch : List Char → Bool
  | [] | '\\' :: ')' :: _ | '\\' :: '|' :: _ => true
  | _ => false

/-- A sign with a meaning of its own, which in the basic spelling stands behind a backslash. -/
def marked? (extended : Bool) (r : Reading) (c : Char) (rest : List Char) :
    Option (Except Fault (Sign × List Char)) :=
  match c with
  | '(' => some (.ok (.opening (r.count + 1), rest))
  | ')' =>
    if r.opened ≠ [] then some (.ok (.closing, rest))
    else if extended ∧ !r.isStrict then none
    else some (.error .unmatchedClosing)
  | '|' => some (.ok (.bar, rest))
  | '+' => if r.isFresh ∧ !extended then none else some (.ok (.times 1 none, rest))
  | '?' => if r.isFresh ∧ !extended then none else some (.ok (.times 0 (some 1), rest))
  | '\x7b' =>
    match extended, interval? extended rest with
    | true, .error fault =>
      if r.isStrict then some (.error fault)
      else if fault = .unmatchedInterval then none
      else if rest.head?.any Char.isDigit ∧ rest.contains '\x7d' ∧
          (rest.takeWhile (· != '\x7d')).all (fun c => c.isDigit || c == ',') then
        some (.error .interval)
      else none
    | _, outcome => some outcome
  | _ => none

def sign (extended : Bool) (r : Reading) (c : Char) (rest : List Char) :
    Except Fault (Sign × List Char) :=
  let plain (re : Regex) : Except Fault (Sign × List Char) := .ok (.item re, rest)
  match c, rest with
  | '\\', [] => .error .backslash
  | '\\', c :: rest =>
    match if extended then none else marked? false r c rest with
    | some outcome => outcome
    | none => (escape? r c).map (.item ·, rest)
  | '.', _ => plain any
  | '[', rest => bracket rest
  | '^', _ => plain (if extended ∨ r.isFresh then spot .lineStart else literal '^')
  | '$', rest => plain (if extended ∨ endsBranch rest then spot .lineEnd else literal '$')
  | '*', rest => if r.isFresh ∧ !extended then plain (literal '*') else .ok (.times 0 none, rest)
  | c, rest =>
    match if extended then marked? true r c rest else none with
    | some outcome => outcome
    | none => plain (literal c)

def Reading.after (r : Reading) : Sign → Reading
  | .item re => { r with isFresh := re == spot .lineStart }
  | .times .. => r
  | .opening number => { r with isFresh := true, opened := number :: r.opened, count := number }
  | .closing => { r with isFresh := false, opened := r.opened.tail }
  | .bar => { r with isFresh := true }

def signs (extended : Bool) (r : Reading) : Nat → List Char → Except Fault (List Sign)
  | 0, _ | _, [] => .ok []
  | fuel + 1, c :: rest => do
    let (s, rest) ← sign extended r c rest
    let more ← signs extended (r.after s) fuel rest
    match s with
    | .times .. =>
      if r.isFresh ∧ r.isStrict then throw .nothing
      return if r.isFresh then more else s :: more
    | s => return s :: more

/-- A group that is being put together: the branches that are done, and the pieces of the one that
is not, the latest first. -/
structure Frame where
  number : Nat
  branches : Option Regex
  pieces : List Regex
  deriving DecidableEq, Repr

def Frame.whole (f : Frame) : Regex :=
  let branch := f.pieces.foldl (fun behind piece => seq piece behind) empty
  match f.branches with
  | some earlier => either earlier branch
  | none => branch

def assemble (f : Frame) (frames : List Frame) : List Sign → Except Fault Regex
  | [] => if frames = [] then .ok f.whole else .error .unmatchedOpening
  | .item re :: rest => assemble { f with pieces := re :: f.pieces } frames rest
  | .times least most :: rest =>
    match f.pieces with
    | re :: pieces => assemble { f with pieces := many least most re :: pieces } frames rest
    | [] => assemble f frames rest
  | .bar :: rest => assemble { f with branches := some f.whole, pieces := [] } frames rest
  | .opening number :: rest => assemble ⟨number, none, []⟩ (f :: frames) rest
  | .closing :: rest =>
    match frames with
    | outer :: frames =>
      let closed := group f.number f.whole
      assemble { outer with pieces := closed :: outer.pieces } frames rest
    | [] => .error .unmatchedClosing

def parse (extended : Bool) (s : String) : Except Fault Regex := do
  assemble ⟨0, none, []⟩ [] (← signs extended ⟨false, true, [], 0⟩ s.length s.toList)

def parseStrictly (s : String) : Except Fault Regex := do
  assemble ⟨0, none, []⟩ [] (← signs true ⟨true, true, [], 0⟩ s.length s.toList)

def groups : Regex → Nat
  | seq a b | either a b => groups a + groups b
  | many _ _ a => groups a
  | group _ a => groups a + 1
  | _ => 0

end Regex

end FunctionJar.Shell
