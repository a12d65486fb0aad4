import FunctionJar.Log
import FunctionJar.Shell.Regex
import FunctionJar.Text.Blank
import FunctionJar.Text.Decimal
import FunctionJar.Text.Word

namespace FunctionJar.Log

abbrev Ceiling := Option Level

namespace Ceiling

def rank (c : Ceiling) : Nat := c.elim 0 Level.rank

def allows (c : Ceiling) (l : Level) : Bool := l.rank ≤ c.rank

end Ceiling

/-- What a directive says of the fields: one that has to be there, and what its text has to be. -/
structure Demand where
  field : String
  pattern : Option String
  deriving DecidableEq, Repr

structure Directive where
  target : String
  span : Option String
  demand : Option Demand
  ceiling : Ceiling
  deriving DecidableEq, Repr

abbrev Filter := List Directive

def levels : List Level := [.error, .warn, .info, .debug, .trace]

def ceiling? (s : String) : Option Ceiling :=
  match Text.count? s with
  | some 0 => some none
  | some n => (levels.find? fun l => l.rank == n).map some
  | none =>
    let name := Text.upper s
    if name = "OFF" then some none else (levels.find? fun l => l.name == name).map some

namespace Demand

def pattern? (s : List Char) : Option String :=
  (Shell.Regex.parseStrictly (String.ofList s)).toOption.map fun _ => String.ofList s

def parse? (s : List Char) : Option Demand :=
  match Text.splitAt '=' s with
  | field :: pattern :: _ => (pattern? pattern).map fun p => ⟨String.ofList field, some p⟩
  | _ => if s = [] then none else some ⟨String.ofList s, none⟩

def matchesEnd (re : Shell.Regex) (s : List Char) : Bool :=
  let ways := (List.range (s.length + 1)).flatMap fun n => re.ways s ⟨s.drop n, []⟩
  match ways with
  | [] => false
  | m :: _ => m.rest.isEmpty

def isMet (d : Demand) (fields : List (String × String)) : Bool :=
  match fields.lookup d.field, d.pattern with
  | none, _ => false
  | some _, none => true
  | some text, some p =>
    (Shell.Regex.parseStrictly p).toOption.any fun re => matchesEnd re text.toList

end Demand

namespace Directive

def forTarget (target : String) (ceiling : Ceiling) : Directive := ⟨target, none, none, ceiling⟩

def opensTarget (c : Char) : Bool := c == '-' || c == ':' || Text.isWord c

def slice (s : List Char) (start stop : Nat) : List Char := (s.drop start).take (stop - start)

def levelFrom? (s : List Char) (start : Nat) : Option Ceiling :=
  match s.drop start with
  | [] => some (some .trace)
  | level => ceiling? (String.ofList level)

def levelBehind? (s trimmed : List Char) (place : Nat) : Option Ceiling :=
  match trimmed.drop place with
  | [] => some (some .trace)
  | '=' :: _ => levelFrom? s (place + 1)
  | _ => none

def spanFrom? (s trimmed : List Char) (target : String) (start : Nat) : Option Directive := do
  let name := (trimmed.drop start).takeWhile fun c => c != ']' && c != '{'
  let stop := start + name.length
  let span := String.ofList (slice s start stop)
  match trimmed.drop stop with
  | ']' :: _ => return ⟨target, some span, none, ← levelBehind? s trimmed (stop + 1)⟩
  | '{' :: rest =>
    let close := stop + 1 + (rest.takeWhile (· != '}')).length
    match trimmed.drop close with
    | '}' :: ']' :: _ =>
      let demand ← Demand.parse? (slice s (stop + 1) close)
      let span := if span = "" then none else some span
      return ⟨target, span, some demand, ← levelBehind? s trimmed (close + 2)⟩
    | _ => none
  | _ => none

/-- A level for all targets, or a target, a span or both with a level or with all levels. The
places of the parts are those in the text without blanks around it, whatever stands there. -/
def parse? (s : List Char) : Option Directive := do
  let trimmed := Text.trim s
  match trimmed with
  | [] => none
  | '[' :: _ => spanFrom? s trimmed "" 1
  | c :: _ =>
    if !opensTarget c then none
    let stop := (trimmed.takeWhile fun c => c != '=' && c != '[').length
    let target := String.ofList (slice s 0 stop)
    match trimmed.drop stop with
    | '=' :: _ => return forTarget target (← levelFrom? s (stop + 1))
    | '[' :: _ => spanFrom? s trimmed target (stop + 1)
    | _ =>
      let whole := String.ofList s
      match ceiling? whole with
      | some c => return forTarget "" c
      | none => return forTarget whole (some .trace)

def covers (d : Directive) (target : String) : Bool := d.target.toList.isPrefixOf target.toList

def isInner (d : Directive) : Bool := d.span.isSome || d.demand.isSome

def asksForText (d : Directive) : Bool := d.demand.any fun f => f.pattern.isSome

def isOuter (d : Directive) : Bool := d.span.isNone && !d.asksForText

def sameScope (a b : Directive) : Bool :=
  a.target == b.target && a.span == b.span && a.demand == b.demand

def isNarrow (a b : Directive) : Bool :=
  if a.target.length ≠ b.target.length then b.target.length < a.target.length
  else match a.demand, b.demand with
    | some f, some g => g.field ≤ f.field
    | none, some _ => false
    | _, none => true

def allowsField (d : Directive) (fields : List String) : Bool :=
  d.demand.all fun f => fields.contains f.field

/-- Whether a directive is for a span, whatever the texts of its fields are. -/
def namesSpan (d : Directive) (s : Span) : Bool :=
  d.isInner && d.covers s.target && d.span.all (· == s.name) && d.allowsField (s.fields.map (·.1))

end Directive

namespace Filter

/-- Errors only, where nothing is said. -/
def fallback : Filter := [.forTarget "" (some .error)]

def parse? (s : String) : Option Filter := do
  let ds ← ((Text.splitAt ',' s.toList).filter (· ≠ [])).mapM Directive.parse?
  return if ds = [] then fallback else ds

def narrowest? (ds : List Directive) : Option Directive :=
  ds.foldl (fun best d =>
    match best with
    | none => some d
    | some b => if d.isNarrow b then some d else some b) none

def top (f : Filter) : Nat :=
  if f.any Directive.asksForText then Level.trace.rank
  else ((f.map fun d => d.ceiling.rank).max?).getD 0

def allows (ds : List Directive) (l : Level) : Bool :=
  (narrowest? ds).any fun d => d.ceiling.allows l

def enters (f : Filter) (s : Span) : Bool :=
  s.level.rank ≤ f.top &&
    (f.any (·.namesSpan s) || allows (f.filter fun d => d.isOuter && d.covers s.target) s.level)

def standing : Filter → Filter
  | [] => []
  | d :: rest => if rest.any d.sameScope then standing rest else d :: standing rest

/-- Whether events of a level are reported inside of a span because of the span. -/
def opens (f : Filter) (s : Span) (l : Level) : Bool :=
  f.enters s && (standing f).any fun d =>
    d.namesSpan s && d.demand.all (·.isMet s.fields) && d.ceiling.allows l

def reports (f : Filter) (s : Option Span) (e : Event) : Bool :=
  let fields := e.fields.map (·.1)
  let outer := f.filter fun d => d.isOuter && d.covers e.target && d.allowsField fields
  e.level.rank ≤ f.top && (allows outer e.level || s.any fun s => f.opens s e.level)

end Filter

end FunctionJar.Log
