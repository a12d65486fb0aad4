import FunctionJar.Shell.Utility.Rule

namespace FunctionJar.Shell.Utility.Editor

open Text (Bytes)

structure Sheet where
  text : List Char
  hasFeed : Bool
  deriving DecidableEq, Repr

/-- What the editing has come to: the lines still to be read, the one that is worked on and the one
that is kept, what follows it once it is done, and what has been printed, the latest first. -/
structure Bench where
  input : List Sheet
  count : Nat
  space : Sheet
  kept : Sheet
  behind : List (List Char)
  printed : List (List Char)
  owesFeed : Bool
  changed : Bool
  ranges : List (Nat × Option Nat)
  files : List (String × List Char)
  used : Option Regex
  status : Nat
  fault : Option String

/-- What stays the same: the rules, whether lines are printed only if a rule says so, what the files
hold that are read, the name of the one that is edited, how long shown lines are, and what ends
lines. -/
structure Job where
  rules : List Rule
  isQuiet : Bool
  content : String → List Char
  fileName : String
  width : Nat
  feed : Char

inductive Flow
  | rule (n : Nat)
  | nextLine
  | sameLine
  | stop
  deriving DecidableEq, Repr

namespace Bench

def emit (b : Bench) (j : Job) (text : List Char) (hasFeed : Bool) : Bench :=
  let lead := if b.owesFeed then [j.feed] else []
  { b with
    printed := (lead ++ text ++ if hasFeed then [j.feed] else []) :: b.printed
    owesFeed := !hasFeed }

def emitText (b : Bench) (j : Job) (text : List Char) : Bench :=
  if text = [] then b
  else { b.emit j text false with owesFeed := false }

def emitSpace (b : Bench) (j : Job) : Bench := b.emit j b.space.text b.space.hasFeed

def settle (b : Bench) (j : Job) : Bench :=
  { b.behind.foldl (fun b text => b.emitText j text) b with behind := [] }

def close (b : Bench) (j : Job) : Bench :=
  (if j.isQuiet then b else b.emitSpace j).settle j

def read? (b : Bench) : Option Bench :=
  match b.input with
  | [] => none
  | s :: rest =>
    some { b with input := rest, count := b.count + 1, space := s, changed := false }

def file (b : Bench) (path : String) (text : List Char) : Bench :=
  { b with files := b.files.map fun f => if f.1 = path then (path, f.2 ++ text) else f }

def copyTo (b : Bench) (j : Job) (path : String) (text : List Char) : Bench :=
  if path = "/dev/stdout" then b.emit j text true else b.file path (text ++ [j.feed])

end Bench

/-- Whether an address picks the line, and the bench with the expression that was used for it. -/
def Address.picks (a : Address) (b : Bench) : Bool × Bench :=
  match a with
  | number n => (b.count == n, b)
  | every first step =>
    (if step = 0 then b.count == first
      else first ≤ b.count && (b.count - first) % step == 0, b)
  | last => (b.input.isEmpty, b)
  | found re =>
    match re.or b.used with
    | some re =>
      ((re.search? b.space.text b.space.text).isSome, { b with used := some re })
    | none => (false, { b with fault := some "no previous regular expression" })
  | further _ | multiple _ => (true, b)

def Address.lastLine? (a : Address) (count : Nat) : Option Nat :=
  match a with
  | number n => some n
  | further n => some (count + n)
  | multiple n => some (if n = 0 then count else count + n - count % n)
  | _ => none

def Rule.applies (r : Rule) (n : Nat) (b : Bench) : Bool × Bench :=
  let outside := { b with ranges := b.ranges.filter (·.1 ≠ n) }
  let inside (last : Option Nat) := { outside with ranges := (n, last) :: outside.ranges }
  match r.first, r.second with
  | none, _ => (true, b)
  | some a, none => a.picks b
  | some first, some second =>
    match b.ranges.lookup n with
    | some (some last) => (b.count ≤ last, if b.count < last then b else outside)
    | some none =>
      let (isEnd, b') := second.picks b
      (true, if isEnd then { outside with used := b'.used, fault := b'.fault } else b')
    | none =>
      let (isStart, b') := first.picks b
      if !isStart then (false, b')
      else
        let inside := { inside (second.lastLine? b.count) with used := b'.used, fault := b'.fault }
        match second.lastLine? b.count with
        | some last => (true, if b.count < last then inside else b')
        | none => (true, inside)

def Casing.write (c : Casing) (cs : List Char) : List Char :=
  match c with
  | kept => cs
  | upper => cs.map Char.toUpper
  | lower => cs.map Char.toLower

/-- What a replacement comes to, where `all` says how letters are written from here on, and `next`
how the next one is. -/
def replaced (whole : List Char) (groups : List (Nat × List Char)) (all next : Casing) :
    List Piece → List Char
  | [] => []
  | .casing c :: rest => replaced whole groups c next rest
  | .initial c :: rest => replaced whole groups all c rest
  | .text s :: rest => add s rest
  | .group n :: rest => add (if n = 0 then whole else (groups.lookup n).getD []) rest
where
  add (s : List Char) (rest : List Piece) : List Char :=
    match s with
    | [] => replaced whole groups all next rest
    | c :: cs =>
      let first := if next = .kept then all.write [c] else next.write [c]
      first ++ all.write cs ++ replaced whole groups all .kept rest

/-- A line with the matches in `s` replaced from the `skip`-th on, and whether there was one. An
empty match does not count right behind another match. -/
def Substitution.run (t : Substitution) (re : Regex) (line : List Char) :
    Nat → Nat → Bool → List Char → List Char × Bool
  | 0, _, _, s => (s, false)
  | fuel + 1, skip, isBehind, s =>
    match re.search? line s with
    | none => (s, false)
    | some (before, m) =>
      let found := s.drop before.length
      let whole := found.take (found.length - m.rest.length)
      let ignored := whole = [] ∧ before = [] ∧ isBehind
      let replaces := !ignored ∧ skip ≤ 1
      let here := if replaces then replaced whole m.groups .kept .kept t.pieces else whole
      if replaces ∧ !t.all then (before ++ here ++ m.rest, true)
      else
        let skip := if ignored then skip else skip - 1
        match whole, m.rest with
        | [], [] => (before ++ here, replaces)
        | [], c :: rest =>
          let (more, hit) := t.run re line fuel skip false rest
          (before ++ here ++ c :: more, replaces || hit)
        | _, rest =>
          let (more, hit) := t.run re line fuel skip true rest
          (before ++ here ++ more, replaces || hit)

/-- The rule behind the group that is opened in front of these rules, which start at place `n`. -/
def behindGroup (depth n : Nat) : List Rule → Nat
  | [] => n
  | r :: rest =>
    match r.action, depth with
    | .closing, 0 => n + 1
    | .closing, depth + 1 => behindGroup depth (n + 1) rest
    | .opening, depth => behindGroup (depth + 1) (n + 1) rest
    | _, depth => behindGroup depth (n + 1) rest

def placeOf (rules : List Rule) (label : String) : Nat :=
  (rules.findIdx? fun r => match r.action with
    | .label name => name == label
    | _ => false).getD rules.length

def listed (width : Nat) (text : List Char) : List Char :=
  let shown (c : Char) : List Char :=
    if c = '\\' then ['\\', '\\'] else (escaped? c).getD [c]
  let add (state : List Char × Nat) (piece : List Char) : List Char × Nat :=
    let (out, n) := state
    if 1 < width ∧ width ≤ n + piece.length then (out ++ ['\\', '\n'] ++ piece, piece.length)
    else (out ++ piece, n + piece.length)
  (text.foldl (fun state c => add state (byteEscape c (shown c))) ([], 0)).1 ++ ['$', '\n']
where
  byteEscape (c : Char) (shown : List Char) : List Char :=
    if c.toNat < 128 then shown else '\\' :: Nat.toDigits 8 c.toNat

def firstPart (text : List Char) : List Char := text.takeWhile (· != '\n')

def Action.run (a : Action) (j : Job) (n : Nat) (b : Bench) : Bench × Flow :=
  let on (b : Bench) : Bench × Flow := (b, .rule (n + 1))
  let text := b.space.text
  match a with
  | substitute t =>
    match t.target.or b.used with
    | none => ({ b with fault := some "no previous regular expression" }, .stop)
    | some re =>
      let (after, hit) := t.run re text (text.length + 2) t.nth false text
      let b := { b with used := some re }
      if !hit then on b
      else
        let b := { b with space := { b.space with text := after }, changed := true }
        let b := if t.prints then b.emitSpace j else b
        on (t.copy.elim b fun path => b.copyTo j path after)
  | map pairs =>
    let changed := text.map fun c => (pairs.lookup c).getD c
    on { b with space := { b.space with text := changed } }
  | branch none goal => (b, .rule (placeOf j.rules goal))
  | branch (some ifChanged) goal =>
    if b.changed = ifChanged then ({ b with changed := false }, .rule (placeOf j.rules goal))
    else on { b with changed := false }
  | label _ | opening | closing | nothing => on b
  | insert text => on (b.emitText j text)
  | append text => on { b with behind := b.behind ++ [text] }
  | change text =>
    let isInRange := (b.ranges.lookup n).isSome
    (if isInRange then b.settle j else (b.emitText j text).settle j, .nextLine)
  | fromFile path => on { b with behind := b.behind ++ [j.content path] }
  | lineFromFile path => on { b with behind := b.behind ++ [j.content path] }
  | copy firstOnly path => on (b.copyTo j path (if firstOnly then firstPart text else text))
  | print firstOnly => on (if firstOnly then b.emit j (firstPart text) true else b.emitSpace j)
  | delete firstOnly =>
    if firstOnly ∧ text.contains '\n' then
      let rest := (text.dropWhile (· != '\n')).tail
      ({ b with space := { b.space with text := rest } }.settle j, .sameLine)
    else (b.settle j, .nextLine)
  | next =>
    if b.input = [] then (b.close j, .stop)
    else match (b.close j).read? with
      | some b => on b
      | none => (b, .stop)
  | join =>
    if b.input = [] then (b.close j, .stop)
    else match (b.settle j).read? with
      | some b => on { b with space := { b.space with text := text ++ '\n' :: b.space.text } }
      | none => (b, .stop)
  | quit prints status =>
    ({ (if prints then b.close j else b) with status }, .stop)
  | number => on (b.emitText j ((toString b.count).toList ++ ['\n']))
  | name => on (b.emitText j (j.fileName.toList ++ ['\n']))
  | list width => on (b.emitText j (listed ((width.getD j.width) - 1) text))
  | hold false => on { b with kept := b.space }
  | hold true => on { b with kept := ⟨b.kept.text ++ '\n' :: text, b.kept.hasFeed⟩ }
  | fetch false => on { b with space := b.kept }
  | fetch true =>
    on { b with space := ⟨text ++ '\n' :: b.kept.text, b.space.hasFeed || b.kept.hasFeed⟩ }
  | exchange => on { b with space := b.kept, kept := b.space }
  | clear => on { b with space := { b.space with text := [] } }

def Rule.run (r : Rule) (j : Job) (n : Nat) (b : Bench) : Bench × Flow :=
  let (applies, b) := r.applies n b
  if b.fault.isSome then (b, .stop)
  else if applies != r.isNegated then r.action.run j n b
  else match r.action with
    | .opening => (b, .rule (behindGroup 0 (n + 1) (j.rules.drop (n + 1))))
    | _ => (b, .rule (n + 1))

def work (j : Job) : Nat → Nat → Bench → Bench
  | 0, _, b => b
  | fuel + 1, n, b =>
    let (b, flow) := match j.rules[n]? with
      | some r => r.run j n b
      | none => (b.close j, .nextLine)
    match flow with
    | .rule n => work j fuel n b
    | .sameLine => work j fuel 0 b
    | .stop => b
    | .nextLine =>
      match b.read? with
      | some b => work j fuel 0 b
      | none => b

def mostSteps : Nat := 1000000

def written (rules : List Rule) : List String :=
  (rules.filterMap fun r => match r.action with
    | .copy _ path => some path
    | .substitute s => s.copy
    | _ => none).eraseDups.filter (· ≠ "/dev/stdout")

def startingRanges (rules : List Rule) : List (Nat × Option Nat) :=
  rules.zipIdx.filterMap fun (r, n) => match r.first, r.second with
    | some (.number 0), some _ => some (n, none)
    | _, _ => none

def Job.edit (j : Job) (files : List (String × List Char)) (content : List Sheet) : Bench :=
  let blank : Sheet := ⟨[], true⟩
  let ranges := startingRanges j.rules
  let start : Bench :=
    ⟨content, 0, blank, blank, [], [], false, false, ranges, files, none, 0, none⟩
  match start.read? with
  | some b => work j mostSteps 0 b
  | none => start

def sheets (feed : Char) (bytes : Bytes) : List Sheet :=
  let add (state : List Sheet × List Char) (c : Char) : List Sheet × List Char :=
    if c = feed then (⟨state.2.reverse, true⟩ :: state.1, []) else (state.1, c :: state.2)
  let (done, open') := (byteChars bytes).foldl add ([], [])
  (if open' = [] then done else ⟨open'.reverse, false⟩ :: done).reverse

def Bench.text (b : Bench) : Bytes := ofByteChars b.printed.reverse.flatten

def joinedScripts : List (List Char) → List (List Char)
  | a :: b :: rest =>
    if (a.reverse.takeWhile (· == '\\')).length % 2 = 1 then
      (joinedScripts (b :: rest)).modifyHead fun b => a ++ '\n' :: b
    else a :: joinedScripts (b :: rest)
  | s => s

def allRules (extended : Bool) (depth n : Nat) : List (List Char) → Except String (List Rule)
  | [] =>
    if depth = 0 then .ok []
    else .error s!"-e expression #{n - 1}, char 0: unmatched \x60\x7b'"
  | s :: rest => do
    let (here, depth) ← (rules extended depth s.length.succ s).mapError fun m =>
      s!"-e expression #{n}, char {s.length - m.rest.length}: {m.text}"
    return here ++ (← allRules extended depth (n + 1) rest)

def missingLabel? (rules : List Rule) : Option String :=
  rules.findSome? fun r => match r.action with
    | .branch _ label =>
      if label = "" ∨ placeOf rules label < rules.length then none else some label
    | _ => none

def editorLong : List (String × Char) :=
  [("quiet", 'n'), ("silent", 'n'), ("expression", 'e'), ("file", 'f'), ("in-place", 'i'),
    ("line-length", 'l'), ("regexp-extended", 'E'), ("separate", 's'), ("unbuffered", 'u'),
    ("null-data", 'z'), ("posix", 'p'), ("sandbox", 'S'), ("follow-symlinks", 'F')]

def editorUsage : Usage := ⟨"sed", "nrEsuz", "efl", "i", editorLong, 1, false⟩

def usageLine : String :=
  "Usage: sed [OPTION]... \x7bscript-only-if-no-other-script\x7d [input-file]..."

def givenScripts (g : Given) (p : Process) : Except String (List (List Char)) :=
  (g.options.filter fun o => o.1 == 'e' || o.1 == 'f').mapM fun (c, value) =>
    if c = 'e' then .ok (bytewise value)
    else match contentOf p value with
      | .ok (_, bytes) => .ok (byteChars bytes)
      | .error e => .error s!"couldn't open file {value}: {e.text}"

/-- What becomes of a file that was edited where it is: it gets the new text, with a copy of what it
was if a suffix is given. -/
def replaceFile (p : Process) (suffix operand : String) (before after : Bytes) : Process :=
  let path := p.path operand
  let kept : List Edit := if suffix = "" then [] else [Edit.write (path ++ suffix) before]
  (kept ++ [Edit.write path after]).foldl (fun p e => (p.edit e).toOption.getD p) p

structure Call where
  job : Job
  given : Given

def Call.files (c : Call) : List (String × List Char) := (written c.job.rules).map (·, [])

def settleFiles (p : Process) (b : Bench) : Process :=
  let p := b.files.foldl (fun p f =>
    (p.edit (.write (p.path f.1) (ofByteChars f.2))).toOption.getD p) p
  match b.fault with
  | some text => p.fail 1 s!"sed: -e expression #1, char 0: {text}"
  | none => if b.status = 0 then p else p.withStatus b.status

def Call.apart (c : Call) (p : Process) (operands : List String) : Process :=
  let step (p : Process) (operand : String) : Process :=
    match contentOf p operand with
    | .error .isDirectory =>
      if c.given.has 'i' then p.fail 4 s!"sed: couldn't edit {operand}: not a regular file"
      else p.fail 2 s!"sed: read error on {operand}: Is a directory"
    | .error e => p.fail 2 s!"sed: can't read {operand}: {e.text}"
    | .ok (p, bytes) =>
      let job := { c.job with fileName := operand }
      let b := job.edit c.files (sheets job.feed bytes)
      let p := if c.given.has 'i' then
          replaceFile p ((c.given.value? 'i').getD "") operand bytes b.text
        else p.print b.text
      settleFiles p b
  each p operands step

def Call.together (c : Call) (p : Process) (operands : List String) : Process :=
  let gather (state : Process × List Sheet) (operand : String) : Process × List Sheet :=
    match contentOf state.1 operand with
    | .ok (p, bytes) =>
      let whole := state.2.map fun s => { s with hasFeed := true }
      (p, if bytes = [] then state.2 else whole ++ sheets c.job.feed bytes)
    | .error .isDirectory =>
      (state.1.fail 4 s!"sed: read error on {operand}: Is a directory", state.2)
    | .error e => (state.1.fail 2 s!"sed: can't read {operand}: {e.text}", state.2)
  let (p, content) := operands.foldl gather (p.withStatus 0, [])
  let b := c.job.edit c.files content
  settleFiles (p.print b.text) b

end Editor

open Editor

def sed (args : List String) (p : Process) : Process :=
  match editorUsage.parse args with
  | .error text => p.fail 1 s!"sed: {text}\n{usageLine}"
  | .ok g =>
    match givenScripts g p with
    | .error text => p.fail 4 s!"sed: {text}"
    | .ok given =>
      let (scripts, operands) := match given, g.operands with
        | [], script :: rest => ([bytewise script], rest)
        | given, operands => (given, operands)
      if scripts = [] then p.fail 1 usageLine
      else
        match allRules (g.hasAny "Er") 0 1 (joinedScripts scripts) with
        | .error text => p.fail 1 s!"sed: {text}"
        | .ok rules =>
          let content (path : String) : List Char :=
            ((contentOf p path).toOption.elim [] fun found => byteChars found.2)
          let isQuiet := g.has 'n' || (scripts.head?.any fun s => s.take 2 == ['#', 'n'])
          let width := ((g.value? 'l').map natOf).getD 70
          let job : Job := ⟨rules, isQuiet, content, "-", width, if g.has 'z' then '\x00' else '\n'⟩
          let call : Call := ⟨job, g⟩
          match missingLabel? rules with
          | some label => p.fail 4 s!"sed: can't find label for jump to \x60{label}'"
          | none =>
            if g.has 'i' ∧ operands = [] then p.fail 4 "sed: no input files"
            else if g.hasAny "is" then call.apart p (operandsOr operands)
            else call.together p (operandsOr operands)

end FunctionJar.Shell.Utility
