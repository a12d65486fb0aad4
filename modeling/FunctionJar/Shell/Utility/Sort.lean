import FunctionJar.Shell.Utility.File

namespace FunctionJar.Shell.Utility

open Text (Bytes)

structure Place where
  field : Nat
  char : Nat

structure SortKey where
  start : Place
  stop : Option Place
  letters : List Char

def isSpace (b : UInt8) : Bool := b = 32 || b = 9

/-- The fields of a line, each with the blanks in front of it, or those between separators. -/
def sortFields (separator : Option UInt8) (line : Bytes) : List Bytes :=
  match separator with
  | some s =>
    let step (state : List Bytes × Bytes) (b : UInt8) : List Bytes × Bytes :=
      if b = s then (state.2.reverse :: state.1, []) else (state.1, b :: state.2)
    let (closed, last) := line.foldl step ([], [])
    (last.reverse :: closed).reverse
  | none =>
    let step (state : List Bytes × Bytes) (b : UInt8) : List Bytes × Bytes :=
      if isSpace b ∧ state.2.any (!isSpace ·) then (state.2.reverse :: state.1, [b])
      else (state.1, b :: state.2)
    let (closed, last) := line.foldl step ([], [])
    (last.reverse :: closed).reverse

def fieldStart (separator : Option UInt8) (fields : List Bytes) (n : Nat) : Nat :=
  let before := fields.take n
  total List.length before + (if separator.isSome then before.length else 0)

def SortKey.part (k : SortKey) (separator : Option UInt8) (line : Bytes) : Bytes :=
  let fields := sortFields separator line
  let skipped (n : Nat) : Nat :=
    if k.letters.contains 'b' then n + ((line.drop n).takeWhile isSpace).length else n
  let start := skipped (fieldStart separator fields (k.start.field - 1)) + (k.start.char - 1)
  let stop := match k.stop with
    | none => line.length
    | some ⟨field, 0⟩ =>
      fieldStart separator fields field - (if separator.isSome ∧ field < fields.length then 1 else 0)
    | some ⟨field, char⟩ => skipped (fieldStart separator fields (field - 1)) + char
  (line.take stop).drop start

/-- The number that a text begins with, as digits on both sides of the point. -/
structure Magnitude where
  isNegative : Bool
  whole : List UInt8
  fraction : List UInt8

def isDigitByte (b : UInt8) : Bool := 48 ≤ b && b ≤ 57

def magnitude (s : Bytes) : Magnitude :=
  let s := s.dropWhile isSpace
  let (isNegative, s) := match s with
    | 45 :: rest => (true, rest)
    | s => (false, s)
  let whole := s.takeWhile isDigitByte
  let fraction := match s.drop whole.length with
    | 46 :: rest => rest.takeWhile isDigitByte
    | _ => []
  ⟨isNegative, whole.dropWhile (· == 48), (fraction.reverse.dropWhile (· == 48)).reverse⟩

def compareBytes : Bytes → Bytes → Ordering
  | [], [] => .eq
  | [], _ => .lt
  | _, [] => .gt
  | a :: x, b :: y => (compare a.toNat b.toNat).then (compareBytes x y)

def Magnitude.order (a b : Magnitude) : Ordering :=
  let isZero (m : Magnitude) : Bool := m.whole.isEmpty && m.fraction.isEmpty
  let sizes := ((compare a.whole.length b.whole.length).then (compareBytes a.whole b.whole)).then
    (compareBytes a.fraction b.fraction)
  match a.isNegative && !isZero a, b.isNegative && !isZero b with
  | false, false => sizes
  | true, true => sizes.swap
  | true, false => .lt
  | false, true => .gt

def upperByte (b : UInt8) : UInt8 := if 97 ≤ b && b ≤ 122 then b - 32 else b

def orderBy (letters : List Char) (a b : Bytes) : Ordering :=
  let has (c : Char) : Bool := letters.contains c
  let isLetterOrDigit (b : UInt8) : Bool :=
    isDigitByte b || (65 ≤ upperByte b && upperByte b ≤ 90) || isSpace b
  let prepared (s : Bytes) : Bytes :=
    let s := if has 'd' then s.filter isLetterOrDigit
      else if has 'i' then s.filter fun b => 32 ≤ b && b < 127 else s
    if has 'f' then s.map upperByte else s
  let order := if has 'n' || has 'g' || has 'h' then (magnitude a).order (magnitude b)
    else compareBytes (prepared a) (prepared b)
  if has 'r' then order.swap else order

def sortPlace? (s : List Char) : Option (Place × List Char) := do
  let field := s.takeWhile Char.isDigit
  let rest := s.drop field.length
  let (char, rest) := match rest with
    | '.' :: rest => (rest.takeWhile Char.isDigit, rest.dropWhile Char.isDigit)
    | rest => ([], rest)
  if field = [] ∨ rest.any (!"bdfghiMnRrV".toList.contains ·) then none
  return (⟨Text.natOfDigits field, Text.natOfDigits char⟩, rest)

def sortKey? (s : String) : Option SortKey :=
  match (Text.splitAt ',' s.toList).mapM sortPlace? with
  | some [(start, letters)] => some ⟨start, none, letters⟩
  | some [(start, letters), (stop, more)] => some ⟨start, some stop, letters ++ more⟩
  | _ => none

def lineOrder (g : Given) (keys : List SortKey) (separator : Option UInt8) (isLast : Bool)
    (a b : Bytes) : Ordering :=
  let common := g.letters.filter "bdfghiMnRrV".toList.contains
  let byKeys := if keys = [] then orderBy common (strip common a) (strip common b)
    else keys.foldl (fun order k =>
      let k := if k.letters = [] then { k with letters := common } else k
      order.then (orderBy k.letters (k.part separator a) (k.part separator b))) .eq
  if isLast then byKeys.then (if g.has 'r' then (compareBytes a b).swap else compareBytes a b)
  else byKeys
where
  strip (letters : List Char) (s : Bytes) : Bytes :=
    if letters.contains 'b' then s.dropWhile isSpace else s

def withoutRuns (isSame : Bytes → Bytes → Bool) : List Bytes → List Bytes
  | a :: b :: rest =>
    if isSame a b then withoutRuns isSame (a :: rest) else a :: withoutRuns isSame (b :: rest)
  | lines => lines
termination_by lines => lines.length

/-- The first line that comes before the line in front of it, with its number. -/
def disorder? (isBefore : Bytes → Bytes → Bool) : Nat → List Bytes → Option (Nat × Bytes)
  | n, a :: b :: rest =>
    if isBefore a b then disorder? isBefore (n + 1) (b :: rest) else some (n + 1, b)
  | _, _ => none

def gathered (operands : List String) (p : Process) :
    Except (String × OsError) (Process × List Bytes) :=
  (operandsOr operands).foldlM (fun (p, lines) operand =>
    match contentOf p operand with
    | .ok (p, bytes) => .ok (p, lines ++ (byteLines bytes).map withoutFeed)
    | .error e => .error (operand, e)) (p, [])

def sortLong : List (String × Char) :=
  [("ignore-leading-blanks", 'b'), ("dictionary-order", 'd'), ("ignore-case", 'f'),
    ("general-numeric-sort", 'g'), ("human-numeric-sort", 'h'), ("numeric-sort", 'n'),
    ("reverse", 'r'), ("stable", 's'), ("unique", 'u'), ("check", 'c'), ("key", 'k'),
    ("output", 'o'), ("field-separator", 't'), ("merge", 'm'), ("zero-terminated", 'z')]

def sort (args : List String) (p : Process) : Process :=
  let u := { Usage.plain "sort" "bdfghiMnRrVmuczCs" "kotST" sortLong with status := 2 }
  u.run args p fun g =>
    let keys := (g.values 'k').map fun k => (k, sortKey? k)
    let separator := (g.value? 't').map bytesOf
    match keys.find? fun k => k.2.isNone || k.2.any (·.start.field == 0), separator with
    | some (k, none), _ =>
      p.fail 2 s!"sort: invalid number at field start: invalid count at start of {quotedText k}"
    | some (k, some _), _ =>
      p.fail 2 s!"sort: field number is zero: invalid field specification {quotedText k}"
    | none, some [] => p.fail 2 "sort: empty tab"
    | none, some (_ :: _ :: _) =>
      let tab := (g.value? 't').getD ""
      p.fail 2 s!"sort: multi-character tab {quotedText tab}"
    | none, separator =>
      match gathered g.operands p with
      | .error (operand, e) =>
        let what := if e = .isDirectory then "read failed" else "cannot read"
        p.fail 2 s!"sort: {what}: {shownText operand}: {e.text}"
      | .ok (p, lines) =>
        let keys := keys.filterMap (·.2)
        let tab := separator.bind List.head?
        let isUnique := g.has 'u'
        let order := lineOrder g keys tab (!isUnique && !g.has 's')
        let isBefore (a b : Bytes) : Bool := order a b != .gt
        if g.hasAny "cC" then
          let isInOrder (a b : Bytes) : Bool := if isUnique then order a b == .lt else isBefore a b
          match disorder? isInOrder 1 lines with
          | none => p.withStatus 0
          | some (n, line) =>
            let text := String.ofList (textOf line)
            let operand := (operandsOr g.operands).headD "-"
            if g.has 'C' then p.withStatus 1
            else p.fail 1 s!"sort: {operand}:{n}: disorder: {text}"
        else
          let sorted := lines.mergeSort isBefore
          let sorted := if isUnique then withoutRuns (fun a b => order a b == .eq) sorted else sorted
          let out := sorted.flatMap (· ++ [10])
          match g.value? 'o' with
          | none => (p.print out).withStatus 0
          | some target =>
            match p.edit (.write (p.path target) out) with
            | .ok p => p.withStatus 0
            | .error e => p.fail 2 s!"sort: open failed: {shownText target}: {e.text}"

def runsOf (isSame : Bytes → Bytes → Bool) : List Bytes → List (List Bytes)
  | [] => []
  | line :: rest =>
    match runsOf isSame rest with
    | (next :: run) :: runs =>
      if isSame line next then (line :: next :: run) :: runs else [line] :: (next :: run) :: runs
    | runs => [line] :: runs

def afterFields (fields bytes : Nat) (line : Bytes) : Bytes :=
  let skip (s : Bytes) : Bytes := (s.dropWhile isSpace).dropWhile (!isSpace ·)
  ((List.range fields).foldl (fun s _ => skip s) line).drop bytes

def uniq (args : List String) (p : Process) : Process :=
  let u := Usage.plain "uniq" "cdDiuz" "fsw"
    [("count", 'c'), ("repeated", 'd'), ("ignore-case", 'i'), ("unique", 'u'),
      ("skip-fields", 'f'), ("skip-chars", 's'), ("check-chars", 'w'), ("zero-terminated", 'z')]
  u.run args p fun g =>
    let number (c : Char) (otherwise : Nat) : Nat := ((g.value? c).map natOf).getD otherwise
    let source := g.operands.headD "-"
    let key (line : Bytes) : Bytes :=
      let part := (afterFields (number 'f' 0) (number 's' 0) line).take (number 'w' line.length)
      if g.has 'i' then part.map upperByte else part
    let lines (run : List Bytes) : List Bytes :=
      let line := run.headD []
      if g.has 'D' then (if run.length = 1 then [] else run)
      else if g.has 'd' ∧ run.length = 1 ∨ g.has 'u' ∧ run.length ≠ 1 then []
      else if g.has 'c' then
        [bytesOf (Text.padLeft 7 ' ' (toString run.length) ++ " ") ++ line]
      else [line]
    let refuse (p : Process) (operand : String) (e : OsError) : Process :=
      p.fail 1 s!"uniq: {shownText operand}: {e.text}"
    let what (c : Char) : String :=
      if c = 'f' then "fields to skip" else if c = 's' then "bytes to skip" else "bytes to compare"
    let bad := g.options.find? fun o => "fsw".toList.contains o.1 && (Text.count? o.2).isNone
    match bad, contentOf p source, g.operands with
    | some (c, value), _, _ => p.fail 1 s!"uniq: {value}: invalid number of {what c}"
    | none, _, _ :: _ :: third :: _ => u.refuse p s!"extra operand {quotedText third}"
    | none, .error .isDirectory, _ =>
      p.fail 1 s!"uniq: error reading {quotedText source}: {OsError.isDirectory.text}"
    | none, .error e, _ => refuse p source e
    | none, .ok (p, bytes), operands =>
      let runs := runsOf (fun a b => key a == key b) ((byteLines bytes).map withoutFeed)
      let out := (runs.flatMap lines).flatMap (· ++ [10])
      match operands with
      | [_, target] =>
        match p.edit (.write (p.path target) out) with
        | .ok p => p.withStatus 0
        | .error e => refuse p target e
      | _ => (p.print out).withStatus 0

end FunctionJar.Shell.Utility
