import FunctionJar.Shell.Regex
import FunctionJar.Shell.Utility.Operand

namespace FunctionJar.Shell.Utility.Editor

inductive Address
  | number (n : Nat)
  | every (first step : Nat)
  | last
  | found (re : Option Regex)
  | further (count : Nat)
  | multiple (n : Nat)

inductive Casing
  | kept
  | upper
  | lower
  deriving DecidableEq, Repr

inductive Piece
  | text (s : List Char)
  | group (n : Nat)
  | casing (c : Casing)
  | initial (c : Casing)

structure Substitution where
  target : Option Regex
  pieces : List Piece
  all : Bool
  prints : Bool
  nth : Nat
  copy : Option String

inductive Action
  | substitute (s : Substitution)
  | map (pairs : List (Char × Char))
  | branch (ifChanged : Option Bool) (label : String)
  | label (name : String)
  | opening
  | closing
  | insert (text : List Char)
  | append (text : List Char)
  | change (text : List Char)
  | fromFile (path : String)
  | lineFromFile (path : String)
  | copy (firstOnly : Bool) (path : String)
  | print (firstOnly : Bool)
  | delete (firstOnly : Bool)
  | next
  | join
  | quit (prints : Bool) (status : Nat)
  | number
  | name
  | list (width : Option Nat)
  | hold (adds : Bool)
  | fetch (adds : Bool)
  | exchange
  | clear
  | nothing

structure Rule where
  first : Option Address
  second : Option Address
  isNegated : Bool
  action : Action

structure Mistake where
  text : String
  rest : List Char

def skipBlank (s : List Char) : List Char := s.dropWhile fun c => c == ' ' || c == '\t'

/-- The length of a set in brackets up to the closing one, which is not the first character. `inner`
is the sign within a pair of inner brackets, or the bracket that closes them if it comes next. -/
def bracketLength (inner : Option Char) : List Char → Nat
  | [] => 0
  | c :: rest =>
    match inner, rest.head? with
    | none, next =>
      let isOpening (d : Char) : Bool := c == '[' && [':', '.', '='].contains d
      if c = ']' then 1 else 1 + bracketLength (next.filter isOpening) rest
    | some ']', _ => 1 + bracketLength none rest
    | some sign, some ']' => 1 + bracketLength (some (if c = sign then ']' else sign)) rest
    | some sign, _ => 1 + bracketLength (some sign) rest

def setLength (s : List Char) : Nat :=
  let lead := match s with
    | '^' :: ']' :: _ => 2
    | '^' :: _ | ']' :: _ => 1
    | _ => 0
  lead + bracketLength none (s.drop lead)

/-- The text up to a separator, and the text behind it. In a pattern a backslash keeps the separator
in it, and so do brackets. -/
def delimited (isPattern : Bool) (separator : Char) : Nat → List Char →
    Except (List Char) (List Char × List Char)
  | 0, s | _, s@([]) => .error s
  | fuel + 1, '\\' :: c :: rest => do
    let (text, behind) ← delimited isPattern separator fuel rest
    if c = 'n' ∧ isPattern then return ('\n' :: text, behind)
    else if c = separator ∧ (isPattern ∨ c ≠ '&') ∨ c = '\n' ∧ isPattern then
      return (c :: text, behind)
    else return ('\\' :: c :: text, behind)
  | fuel + 1, c :: rest => do
    if c = separator then return ([], rest)
    else if c = '\n' then throw (c :: rest)
    else if c = '[' ∧ isPattern then
      let n := setLength rest
      let (text, behind) ← delimited isPattern separator fuel (rest.drop n)
      return (c :: rest.take n ++ text, behind)
    else
      let (text, behind) ← delimited isPattern separator fuel rest
      return (c :: text, behind)

def hexValue? (c : Char) : Option Nat :=
  if c.isDigit then some (c.toNat - 48)
  else if 'a' ≤ c.toLower ∧ c.toLower ≤ 'f' then some (c.toLower.toNat - 87)
  else none

def controls : List Char → List Char
  | '\\' :: 'x' :: a :: b :: rest =>
    match hexValue? a, hexValue? b with
    | some m, some n => Char.ofNat (16 * m + n) :: controls rest
    | _, _ => '\\' :: 'x' :: controls (a :: b :: rest)
  | '\\' :: c :: rest =>
    match c with
    | 't' => '\t' :: controls rest
    | 'f' => '\x0c' :: controls rest
    | 'v' => '\x0b' :: controls rest
    | 'a' => '\x07' :: controls rest
    | 'r' => '\r' :: controls rest
    | c => '\\' :: c :: controls rest
  | c :: rest => c :: controls rest
  | [] => []

def pieces : List Char → List Piece
  | [] => []
  | '&' :: rest => .group 0 :: pieces rest
  | '\\' :: c :: rest =>
    (match c with
      | 'n' => .text ['\n']
      | 'U' => .casing .upper
      | 'L' => .casing .lower
      | 'E' => .casing .kept
      | 'u' => .initial .upper
      | 'l' => .initial .lower
      | c => if c.isDigit then .group (c.toNat - 48) else .text [c]) :: pieces rest
  | c :: rest => .text [c] :: pieces rest

/-- The expression of a pattern, or none for an empty one, which stands for the one used before. -/
def target? (extended ignoresCase : Bool) (pattern rest : List Char) :
    Except Mistake (Option Regex) :=
  if pattern = [] then .ok none
  else match Regex.parse extended (String.ofList (controls pattern)) with
    | .ok re => .ok (some (if ignoresCase then re.ignoringCase else re))
    | .error fault => .error ⟨fault.text, rest⟩

def numberAt (s : List Char) : Option Nat × List Char :=
  let digits := s.takeWhile Char.isDigit
  (Text.digits? digits, s.drop digits.length)

def address (extended isSecond : Bool) (s : List Char) :
    Except Mistake (Option Address × List Char) :=
  let pattern (separator : Char) (rest : List Char) :
      Except Mistake (Option Address × List Char) := do
    let (text, rest) ← (delimited true separator rest.length.succ rest).mapError fun rest =>
      Mistake.mk "unterminated address regex" rest
    let flags := rest.takeWhile fun c => c == 'I' || c == 'M'
    let rest := skipBlank (rest.drop flags.length)
    return (some (.found (← target? extended (flags.contains 'I') text rest)), rest)
  match s with
  | '$' :: rest => .ok (some .last, skipBlank rest)
  | '/' :: rest => pattern '/' rest
  | '\\' :: separator :: rest => pattern separator rest
  | c :: rest =>
    let (n, behind) := numberAt rest
    if isSecond ∧ (c = '+' ∨ c = '~') then
      let n := n.getD 0
      .ok (some (if c = '+' then .further n else .multiple n), skipBlank behind)
    else match numberAt s with
      | (some first, '~' :: rest) =>
        let (step, rest) := numberAt rest
        .ok (some (.every first (step.getD 0)), skipBlank rest)
      | (some n, rest) => .ok (some (.number n), skipBlank rest)
      | (none, _) => .ok (none, s)
  | [] => .ok (none, [])

structure Options where
  all : Bool
  prints : Bool
  ignoresCase : Bool
  nth : Option Nat
  copy : Option String

def substitutionOptions (o : Options) : Nat → List Char → Except Mistake (Options × List Char)
  | 0, s | _, s@([]) | _, s@('\x7d' :: _) | _, s@('#' :: _) => .ok (o, s)
  | fuel + 1, c :: rest =>
    match c with
    | '\n' | ';' => .ok (o, rest)
    | ' ' | '\t' | 'm' | 'M' => substitutionOptions o fuel rest
    | 'g' =>
      if o.all then .error ⟨"multiple \x60g' options to \x60s' command", rest⟩
      else substitutionOptions { o with all := true } fuel rest
    | 'p' =>
      if o.prints then .error ⟨"multiple \x60p' options to \x60s' command", rest⟩
      else substitutionOptions { o with prints := true } fuel rest
    | 'i' | 'I' => substitutionOptions { o with ignoresCase := true } fuel rest
    | 'w' =>
      let path := (skipBlank rest).takeWhile (· != '\n')
      let behind := (skipBlank rest).drop (path.length + 1)
      if path = [] then .error ⟨"missing filename in r/R/w/W commands", rest⟩
      else .ok ({ o with copy := some (String.ofList path) }, behind)
    | c =>
      match numberAt (c :: rest) with
      | (some n, behind) =>
        if o.nth.isSome then .error ⟨"multiple number options to \x60s' command", behind⟩
        else if n = 0 then
          .error ⟨"number option to \x60s' command may not be zero", behind⟩
        else substitutionOptions { o with nth := some n } fuel behind
      | (none, _) => .error ⟨"unknown option to \x60s'", rest⟩

structure Read where
  action : Action
  rest : List Char

def substitution (extended : Bool) (s : List Char) : Except Mistake Read := do
  let unfinished (rest : List Char) : Mistake := ⟨"unterminated \x60s' command", rest⟩
  match s with
  | separator :: s =>
    let (pattern, s) ← (delimited true separator s.length.succ s).mapError unfinished
    let (replacement, s) ← (delimited false separator s.length.succ s).mapError unfinished
    let (o, rest) ← substitutionOptions ⟨false, false, false, none, none⟩ s.length.succ s
    let target ← target? extended o.ignoresCase pattern rest
    let pieces := pieces (controls replacement)
    for piece in pieces do
      if let .group n := piece then
        if target.any (·.groups < n) then
          throw ⟨"invalid reference \\" ++ toString n ++ " on \x60s' command's RHS", rest⟩
    return ⟨.substitute ⟨target, pieces, o.all, o.prints, o.nth.getD 1, o.copy⟩, rest⟩
  | [] => throw (unfinished [])

/-- Checks that nothing but the end of an action is there, and takes it off. -/
def ended (action : Action) (s : List Char) : Except Mistake Read :=
  match skipBlank s with
  | [] => .ok ⟨action, []⟩
  | '\n' :: rest | ';' :: rest => .ok ⟨action, rest⟩
  | c :: rest =>
    if c = '\x7d' ∨ c = '#' then .ok ⟨action, c :: rest⟩
    else .error ⟨"extra characters after command", rest⟩

def mapped : List Char → List Char
  | '\\' :: 'n' :: rest => '\n' :: mapped rest
  | '\\' :: '\\' :: rest => '\\' :: mapped rest
  | c :: rest => c :: mapped rest
  | [] => []

def mapping (s : List Char) : Except Mistake Read := do
  let unfinished (rest : List Char) : Mistake := ⟨"unterminated \x60y' command", rest⟩
  match s with
  | separator :: s =>
    let (before, s) ← (delimited false separator s.length.succ s).mapError unfinished
    let (after, s) ← (delimited false separator s.length.succ s).mapError unfinished
    let (before, after) := (mapped (controls before), mapped (controls after))
    if before.length ≠ after.length then
      throw ⟨"strings for \x60y' command are different lengths", s⟩
    ended (.map (before.zip after)) s
  | [] => throw (unfinished [])

def textTo : List Char → List Char × List Char
  | [] => ([], [])
  | '\n' :: rest => ([], rest)
  | '\\' :: c :: rest => let (text, behind) := textTo rest; (c :: text, behind)
  | c :: rest => let (text, behind) := textTo rest; (c :: text, behind)

def addedText (make : List Char → Action) (s : List Char) : Except Mistake Read :=
  let take (s : List Char) : Except Mistake Read :=
    let (text, rest) := textTo (controls s)
    .ok ⟨make (if s = [] then [] else text ++ ['\n']), rest⟩
  match skipBlank s with
  | [] => .error ⟨"expected \\ after \x60a', \x60c' or \x60i'", []⟩
  | '\\' :: rest =>
    match skipBlank rest with
    | '\n' :: rest => take rest
    | _ => take rest
  | s => take s

def fileName (make : String → Action) (s : List Char) : Except Mistake Read :=
  let path := (skipBlank s).takeWhile (· != '\n')
  let rest := (skipBlank s).drop (path.length + 1)
  if path = [] then .error ⟨"missing filename in r/R/w/W commands", rest⟩
  else .ok ⟨make (String.ofList path), rest⟩

def isBreak (c : Char) : Bool := c == ';' || c == ' ' || c == '\t' || c == '\n'

def action (extended : Bool) (c : Char) (s : List Char) : Except Mistake Read :=
  let labelled (make : String → Action) : Except Mistake Read :=
    let name := (skipBlank s).takeWhile (!isBreak ·)
    ended (make (String.ofList name)) ((skipBlank s).drop name.length)
  let counted (make : Option Nat → Action) : Except Mistake Read :=
    let (n, rest) := numberAt (skipBlank s)
    ended (make n) rest
  match c with
  | 's' => substitution extended s
  | 'y' => mapping s
  | '\x7b' => .ok ⟨.opening, s⟩
  | '\x7d' => ended .closing s
  | 'a' => addedText .append s
  | 'i' => addedText .insert s
  | 'c' => addedText .change s
  | 'r' => fileName .fromFile s
  | 'R' => fileName .lineFromFile s
  | 'w' => fileName (.copy false) s
  | 'W' => fileName (.copy true) s
  | 'b' => labelled (.branch none)
  | 't' => labelled (.branch (some true))
  | 'T' => labelled (.branch (some false))
  | ':' =>
    let name := (skipBlank s).takeWhile (!isBreak ·)
    if name = [] then .error ⟨"\":\" lacks a label", s⟩ else labelled .label
  | 'p' => ended (.print false) s
  | 'P' => ended (.print true) s
  | 'd' => ended (.delete false) s
  | 'D' => ended (.delete true) s
  | 'n' => ended .next s
  | 'N' => ended .join s
  | 'h' => ended (.hold false) s
  | 'H' => ended (.hold true) s
  | 'g' => ended (.fetch false) s
  | 'G' => ended (.fetch true) s
  | 'x' => ended .exchange s
  | 'z' => ended .clear s
  | '=' => ended .number s
  | 'F' => ended .name s
  | 'v' => labelled fun _ => .nothing
  | 'l' | 'L' => counted .list
  | 'q' => counted fun n => .quit true (n.getD 0)
  | 'Q' => counted fun n => .quit false (n.getD 0)
  | c => .error ⟨s!"unknown command: \x60{c}'", s⟩

def rangeEnd (extended : Bool) (s : List Char) : Except Mistake (Option Address × List Char) :=
  match s with
  | ',' :: s => do
    match ← address extended true (skipBlank s) with
    | (none, rest) => throw ⟨"unexpected \x60,'", rest.tail⟩
    | found => return found
  | s => .ok (none, s)

/-- Whether a range may start before the first line: only one that ends with a match. -/
def startsAtZero (first second : Option Address) : Bool :=
  match first, second with
  | some (.number 0), some (.found _) => false
  | some (.number 0), _ => true
  | _, _ => false

def rule (extended : Bool) (depth : Nat) (s : List Char) :
    Except Mistake (Rule × List Char) := do
  let (first, s) ← address extended false s
  let (second, s) ← match first with
    | some _ => rangeEnd extended s
    | none => pure (none, s)
  let (isNegated, s) := match s with
    | '!' :: rest => (true, skipBlank rest)
    | s => (false, s)
  match s with
  | [] => throw ⟨"missing command", []⟩
  | c :: rest =>
    if startsAtZero first second then throw ⟨"invalid usage of line address 0", rest⟩
    if c = '!' ∧ isNegated then throw ⟨"multiple \x60!'s", rest⟩
    if c = '\x7d' ∧ depth = 0 then throw ⟨"unexpected \x60\x7d'", rest⟩
    if c = ':' ∧ first.isSome then throw ⟨": doesn't want any addresses", rest⟩
    let read ← action extended c rest
    return (⟨first, second, isNegated, read.action⟩, read.rest)

def rules (extended : Bool) (depth : Nat) : Nat → List Char → Except Mistake (List Rule × Nat)
  | 0, _ => .ok ([], depth)
  | fuel + 1, s =>
    match s.dropWhile isBreak with
    | [] => .ok ([], depth)
    | '#' :: rest => rules extended depth fuel (rest.dropWhile (· != '\n'))
    | s => do
      let (r, rest) ← rule extended depth s
      let depth := match r.action with
        | .opening => depth + 1
        | .closing => depth - 1
        | _ => depth
      let (more, depth) ← rules extended depth fuel rest
      return (r :: more, depth)

end FunctionJar.Shell.Utility.Editor
