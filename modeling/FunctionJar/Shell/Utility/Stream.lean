import FunctionJar.Shell.Utility.File

namespace FunctionJar.Shell.Utility

open Text (Bytes)

/-- What is still to be known about the lines that have been numbered: how many, whether the last
one was empty, and whether it still goes on. -/
structure Numbering where
  count : Nat
  wasEmpty : Bool
  goesOn : Bool

/-- A byte that is shown by others: a caret for a control character, an `M` for the upper half. -/
def visibleByte (b : UInt8) : Bytes :=
  let low (n : Nat) : List Nat :=
    if n < 32 then [94, n + 64] else if n = 127 then [94, 63] else [n]
  let n := b.toNat
  (if n < 128 then low n else [77, 45] ++ low (n - 128)).map UInt8.ofNat

def shownByte (g : Given) (b : UInt8) : Bytes :=
  if b = 9 then (if g.hasAny "TAt" then [94, 73] else [9])
  else if b = 10 then (if g.hasAny "EAe" then [36, 10] else [10])
  else if g.hasAny "vAet" then visibleByte b
  else [b]

def catLine (g : Given) (n : Numbering) (line : Bytes) : Bytes × Numbering :=
  let isEmpty := line == [10] && !n.goesOn
  if g.has 's' ∧ isEmpty ∧ n.wasEmpty then ([], n)
  else
    let isNumbered := !n.goesOn && if g.has 'b' then !isEmpty else g.has 'n'
    let lead := if isNumbered then Text.padLeft 6 ' ' (toString (n.count + 1)) ++ "\t" else ""
    (bytesOf lead ++ line.flatMap (shownByte g),
      ⟨if isNumbered then n.count + 1 else n.count, isEmpty, line.getLast? != some 10⟩)

def catLines (g : Given) (n : Numbering) : List Bytes → Bytes × Numbering
  | [] => ([], n)
  | line :: rest =>
    let (here, n) := catLine g n line
    let (more, n) := catLines g n rest
    (here ++ more, n)

def cat (args : List String) (p : Process) : Process :=
  let long := [("show-all", 'A'), ("number-nonblank", 'b'), ("number", 'n'), ("show-ends", 'E'),
    ("squeeze-blank", 's'), ("show-tabs", 'T'), ("show-nonprinting", 'v')]
  (Usage.plain "cat" "AbeEnstTuv" "" long).run args p fun g =>
    let isPlain := !g.hasAny "AbeEnstTv"
    let step (state : Process × Numbering) (operand : String) : Process × Numbering :=
      match contentOf state.1 operand with
      | .ok (p, bytes) =>
        if isPlain then (p.print bytes, state.2)
        else
          let (out, n) := catLines g state.2 (byteLines bytes)
          (p.print out, n)
      | .error e => (state.1.fail 1 s!"cat: {shownText operand}: {e.text}", state.2)
    ((operandsOr g.operands).foldl step (p.withStatus 0, ⟨0, false, false⟩)).1

def amount? (s : List Char) : Option Nat := do
  let digits := s.takeWhile Char.isDigit
  let n ← Text.digits? digits
  let factor ← match String.ofList (s.drop digits.length) with
    | "" => some 1
    | "b" => some 512
    | "kB" => some 1000
    | "k" | "K" | "KiB" => some 1024
    | "MB" => some 1000000
    | "M" | "MiB" => some (1024 * 1024)
    | _ => none
  return n * factor

/-- How much of a file is wanted: so much from one end, or all but so much. -/
inductive Portion
  | just (n : Nat)
  | allBut (n : Nat)

def portion? (other : Char) (g : Given) : Except String (Bool × Portion) :=
  let isBytes := g.last? "nc" = some 'c'
  let given := (g.value? (if isBytes then 'c' else 'n')).getD "10"
  let what := if isBytes then "bytes" else "lines"
  let (sign, digits) := match given.toList with
    | '-' :: rest => ('-', rest)
    | '+' :: rest => ('+', rest)
    | rest => (' ', rest)
  match amount? digits with
  | none => .error s!"invalid number of {what}: {quotedText given}"
  | some n =>
    if Nat.pow 2 64 ≤ n then
      .error s!"invalid number of {what}: {quotedText given}: Value too large for defined data type"
    else .ok (isBytes, if sign = other then .allBut n else .just n)

def withCount (signs : List Char) (args : List String) : List String :=
  match args with
  | [] => []
  | arg :: rest =>
    match arg.toList with
    | sign :: c :: cs =>
      if signs.contains sign ∧ (c :: cs).all Char.isDigit then
        let count := String.ofList (if sign = '+' then arg.toList else c :: cs)
        "-n" :: count :: rest
      else arg :: rest
    | _ => arg :: rest

def printParts (name : String) (g : Given) (pick : Bytes → Bytes) (p : Process) : Process :=
  let operands := operandsOr g.operands
  let isHeaded := match g.last? "qv" with
    | some c => c == 'v'
    | none => 1 < operands.length
  let step (state : Process × Bool) (operand : String) : Process × Bool :=
    let (p, isFirst) := state
    let title := if operand = "-" then "standard input" else operand
    let lead := if isFirst then "" else "\n"
    let header := if isHeaded then s!"{lead}==> {title} <==\n" else ""
    match contentOf p operand with
    | .ok (p, bytes) => (p.print (bytesOf header ++ pick bytes), false)
    | .error .isDirectory =>
      let p := p.print (bytesOf header)
      (p.fail 1 s!"{name}: error reading {quotedText operand}: {OsError.isDirectory.text}", false)
    | .error e =>
      (p.fail 1 s!"{name}: cannot open {quotedText operand} for reading: {e.text}", isFirst)
  (operands.foldl step (p.withStatus 0, true)).1

def partLong : List (String × Char) :=
  [("lines", 'n'), ("bytes", 'c'), ("quiet", 'q'), ("silent", 'q'), ("verbose", 'v'),
    ("zero-terminated", 'z')]

def head (args : List String) (p : Process) : Process :=
  (Usage.plain "head" "qvz" "nc" partLong).run (withCount ['-'] args) p fun g =>
    match portion? '-' g with
    | .error text => p.fail 1 s!"head: {text}"
    | .ok (isBytes, portion) =>
      let pick {α : Type} (items : List α) : List α := match portion with
        | .just n => items.take n
        | .allBut n => items.take (items.length - n)
      printParts "head" g
        (fun bytes => if isBytes then pick bytes else (pick (byteLines bytes)).flatten) p

def tail (args : List String) (p : Process) : Process :=
  let u := { Usage.plain "tail" "qvzfF" "ncs" (("follow", 'f') :: partLong) with optional := "" }
  u.run (withCount ['-', '+'] args) p fun g =>
    match portion? '+' g with
    | .error text => p.fail 1 s!"tail: {text}"
    | .ok (isBytes, portion) =>
      let pick {α : Type} (items : List α) : List α := match portion with
        | .just n => items.drop (items.length - n)
        | .allBut n => items.drop (n - 1)
      let p := printParts "tail" g
        (fun bytes => if isBytes then pick bytes else (pick (byteLines bytes)).flatten) p
      if g.hasAny "fF" ∧ g.operands ≠ [] then { p with ended := some .hangs } else p

def counts (bytes : Bytes) : List (Char × Nat) :=
  let step (state : Nat × Bool) (b : UInt8) : Nat × Bool :=
    let isGap := b = 32 || 9 ≤ b && b ≤ 13
    (if !isGap && !state.2 then state.1 + 1 else state.1, !isGap)
  let wide (state : Nat × Nat) (b : UInt8) : Nat × Nat :=
    if b = 10 then (max state.1 state.2, 0)
    else if b = 9 then (state.1, (state.2 / 8 + 1) * 8)
    else if 32 ≤ b ∧ b < 127 then (state.1, state.2 + 1)
    else state
  let (longest, last) := bytes.foldl wide (0, 0)
  [('l', bytes.count 10), ('w', (bytes.foldl step (0, false)).1), ('m', bytes.length),
    ('c', bytes.length), ('L', max longest last)]

def addCounts (a b : List (Char × Nat)) : List (Char × Nat) :=
  (a.zip b).map fun (x, y) => (x.1, if x.1 = 'L' then max x.2 y.2 else x.2 + y.2)

def wc (args : List String) (p : Process) : Process :=
  let long := [("bytes", 'c'), ("chars", 'm'), ("lines", 'l'), ("max-line-length", 'L'),
    ("words", 'w')]
  (Usage.plain "wc" "cmlLw" "" long).run args p fun g =>
    let wanted := "lwmcL".toList.filter fun c =>
      if g.options = [] then "lwc".toList.contains c else g.has c
    let size (operand : String) : Option Nat :=
      match p.disk.read (p.path operand) with
      | .ok bytes =>
        if operand = "-" ∨ (p.path operand).startsWith "/dev/" then none else some bytes.length
      | .error .isDirectory => none
      | .error _ => some 0
    let sizes := (operandsOr g.operands).map size
    let width := if wanted.length = 1 ∧ g.operands.length ≤ 1 then 1
      else max (if sizes.contains none then 7 else 1)
        (toString (total id (sizes.filterMap id))).length
    let line (cs : List (Char × Nat)) (title : List String) : String :=
      let numbers := wanted.map fun c => Text.padLeft width ' ' (toString ((cs.lookup c).getD 0))
      Text.join " " (numbers ++ title)
    let step (state : Process × List (Char × Nat)) (operand : String) :
        Process × List (Char × Nat) :=
      let title := if g.operands = [] then [] else [operand]
      match contentOf state.1 operand with
      | .ok (p, bytes) =>
        (p.printLine (line (counts bytes) title), addCounts state.2 (counts bytes))
      | .error e =>
        let p := state.1.fail 1 s!"wc: {shownText operand}: {e.text}"
        (if e = .isDirectory then p.printLine (line (counts []) title) else p, state.2)
    let (p, total) := (operandsOr g.operands).foldl step (p.withStatus 0, counts [])
    if 1 < g.operands.length then p.printLine (line total ["total"]) else p

def tac (args : List String) (p : Process) : Process :=
  (Usage.plain "tac" "br" "s" []).run args p fun g =>
    eachContent p g.operands
      (fun p operand e => match e with
        | .isDirectory => p.fail 1 s!"tac: {shownText operand}: read error: {e.text}"
        | e => p.fail 1 s!"tac: failed to open {quotedText operand} for reading: {e.text}")
      fun p _ bytes => p.print (byteLines bytes).reverse.flatten

def rev (args : List String) (p : Process) : Process :=
  (Usage.plain "rev" "0" "" []).run args p fun g =>
    eachContent p g.operands (fun p operand e => p.fail 1 s!"rev: cannot open {operand}: {e.text}")
      fun p _ bytes => (byteLines bytes).foldl (fun p line =>
        let ending := if line.getLast? = some 10 then [10] else []
        let text := textOf (withoutFeed line)
        p.print (bytesOf (String.ofList text.reverse) ++ ending)) p

def tee (args : List String) (p : Process) : Process :=
  (Usage.plain "tee" "aip" "" [("append", 'a'), ("ignore-interrupts", 'i')]).run args p fun g =>
    let input := p.input
    let open_ (state : Process × List String) (operand : String) : Process × List String :=
      let (p, paths) := state
      let path := p.path operand
      let before := if g.has 'a' then (p.disk.read path).toOption.getD [] else []
      if operand = "/dev/null" then (p, paths)
      else match p.edit (.write path (before ++ input)) with
        | .ok p => (p, path :: paths)
        | .error e => (p.fail 1 s!"tee: {shownText operand}: {e.text}", paths)
    let (p, _) := g.operands.foldl open_ (p.withStatus 0, [])
    (p.withInput []).print input

def refuseCmp (p : Process) (text : String) : Process :=
  p.fail 2 s!"cmp: {text}\ncmp: Try 'cmp --help' for more information."

def differences (a b : Bytes) : List (Nat × UInt8 × UInt8) :=
  ((a.zip b).zipIdx 1).filterMap fun (pair, n) =>
    if pair.1 = pair.2 then none else some (n, pair.1, pair.2)

def octalByte (b : UInt8) : String :=
  Text.padLeft 3 ' ' (String.ofList (Nat.toDigits 8 b.toNat))

def compare (g : Given) (names : String × String) (x y : Bytes) (p : Process) : Process :=
  let found := differences x y
  let shared := min x.length y.length
  let shorter := if x.length < y.length then names.1 else names.2
  let upTo (n : Nat) : Nat := (x.take n).count 10
  let isAtStart := (x.take shared).getLast? = some 10
  let ending := if shared = 0 then "which is empty"
    else if isAtStart then s!"after byte {shared}, line {upTo shared}"
    else s!"after byte {shared}, in line {upTo shared + 1}"
  let atEnd (p : Process) : Process :=
    if x.length = y.length then p else p.fail 1 s!"cmp: EOF on {shorter} {ending}"
  if x = y then p.withStatus 0
  else if g.has 's' then p.withStatus 1
  else if g.has 'l' then
    let width := (toString shared).length
    let lines := found.map fun (n, a, b) =>
      Text.padLeft width ' ' (toString n) ++ s!" {octalByte a} {octalByte b}"
    atEnd ((printLines p lines).withStatus 1)
  else match found with
    | [] => atEnd p
    | (n, a, b) :: _ =>
      let bytes := if g.has 'b' then
          let shown (b : UInt8) : String :=
            octalByte b ++ " " ++ String.ofList (textOf (visibleByte b))
          s!" is {shown a} {shown b}"
        else ""
      let unit := if g.has 'b' then "byte" else "char"
      (p.printLine s!"{names.1} {names.2} differ: {unit} {n}, line {upTo n + 1}{bytes}").withStatus 1

/-- Whether two files are the same, both perhaps only from some place on or up to some length. -/
def cmp (args : List String) (p : Process) : Process :=
  let long := [("quiet", 's'), ("silent", 's'), ("print-bytes", 'b'), ("verbose", 'l'),
    ("ignore-initial", 'i'), ("bytes", 'n')]
  match (Usage.plain "cmp" "bsl" "in" long).parse args with
  | .error text => refuseCmp p text
  | .ok g =>
    let skips := g.operands.drop 2 ++ (g.value? 'i').toList
    let skip := skips.map fun s => amount? s.toList
    match g.operands, skips.find? fun s => (amount? s.toList).isNone with
    | [], _ => refuseCmp p "missing operand after 'cmp'"
    | _, some s => refuseCmp p s!"invalid --ignore-initial value {quotedText s}"
    | a :: rest, none =>
      let b := rest.headD "-"
      match contentOf p a, contentOf p b with
      | .ok (_, x), .ok (_, y) =>
        let x := x.drop ((skip.head?.join).getD 0)
        let y := y.drop ((((skip.drop 1).head?.or skip.head?).join).getD 0)
        match (g.value? 'n').bind fun n => amount? n.toList with
        | some n => compare g (a, b) (x.take n) (y.take n) p
        | none => if a = b then p.withStatus 0 else compare g (a, b) x y p
      | .error e, _ => if g.has 's' then p.withStatus 2 else p.fail 2 s!"cmp: {a}: {e.text}"
      | _, .error e => if g.has 's' then p.withStatus 2 else p.fail 2 s!"cmp: {b}: {e.text}"

end FunctionJar.Shell.Utility
