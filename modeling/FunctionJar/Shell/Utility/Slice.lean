import FunctionJar.Shell.Format
import FunctionJar.Shell.Utility.File

namespace FunctionJar.Shell.Utility

open Text (Bytes)

structure Span where
  first : Nat
  last : Option Nat

def Span.has (s : Span) (n : Nat) : Bool := s.first ≤ n && s.last.all (n ≤ ·)

def span? (ofFields : Bool) (s : List Char) : Except String Span := do
  let number (digits : List Char) : Except String Nat :=
    match Text.digits? digits with
    | some n =>
      if n = 0 then .error (if ofFields then "fields are numbered from 1"
        else "byte/character positions are numbered from 1")
      else .ok n
    | none =>
      if digits = [] then .error (if ofFields then "fields are numbered from 1"
        else "byte/character positions are numbered from 1")
      else
        let text := quotedText (String.ofList digits)
        .error (if ofFields then s!"invalid field value {text}"
          else s!"invalid byte/character position {text}")
  match Text.splitAt '-' s with
  | [a] =>
    let n ← number a
    return ⟨n, some n⟩
  | [[], []] => throw "invalid range with no endpoint: -"
  | [a, b] =>
    let first ← if a = [] then pure 1 else number a
    if b = [] then return ⟨first, none⟩
    let last ← number b
    if last < first then throw "invalid decreasing range"
    return ⟨first, some last⟩
  | _ => throw (if ofFields then "invalid field range" else "invalid byte or character range")

def splitBytes (separator : UInt8) (s : Bytes) : List Bytes :=
  let step (state : List Bytes × Bytes) (b : UInt8) : List Bytes × Bytes :=
    if b = separator then (state.2.reverse :: state.1, []) else (state.1, b :: state.2)
  let (closed, last) := s.foldl step ([], [])
  (last.reverse :: closed).reverse

/-- The items at places that are picked, in the groups in which they stand side by side. -/
def pickedRuns {α : Type} (picks : Nat → Bool) (starts : Nat → Bool) (items : List α) :
    List (List α) :=
  let step (runs : List (List α) × Bool) (item : α × Nat) : List (List α) × Bool :=
    if !picks item.2 then (runs.1, false)
    else match runs with
      | (run :: before, true) =>
        if starts item.2 then ([item.1] :: run :: before, true)
        else ((item.1 :: run) :: before, true)
      | (before, _) => ([item.1] :: before, true)
  (((items.zipIdx 1).foldl step ([], false)).1.map List.reverse).reverse

def cutLine (g : Given) (spans : List Span) (separator : UInt8) (line : Bytes) : Option Bytes :=
  let picks (n : Nat) : Bool := spans.any (·.has n) != g.has 'C'
  match g.value? 'f' with
  | some _ =>
    match splitBytes separator line with
    | [_] => if g.has 's' then none else some line
    | fields =>
      let between := ((g.value? 'O').map bytesOf).getD [separator]
      some (between.intercalate ((fields.zipIdx 1).filterMap fun (f, n) =>
        if picks n then some f else none))
  | none =>
    let between := ((g.value? 'O').map bytesOf).getD []
    let isCovered (n : Nat) : Bool :=
      spans.any fun s => s.first < n && s.last.all (n - 1 ≤ ·)
    let starts (n : Nat) : Bool :=
      g.has 'O' && spans.any fun s => s.first = n && !isCovered n
    some (between.intercalate (pickedRuns picks starts line))

def cut (args : List String) (p : Process) : Process :=
  let u := Usage.plain "cut" "nszC" "bcdfO"
    [("bytes", 'b'), ("characters", 'c'), ("delimiter", 'd'), ("fields", 'f'),
      ("complement", 'C'), ("only-delimited", 's'), ("output-delimiter", 'O'),
      ("zero-terminated", 'z')]
  u.run args p fun g =>
    let lists := (g.options.filter fun o => "bcf".toList.contains o.1).map (·.2)
    let ofFields := g.has 'f'
    let separator := ((g.value? 'd').map bytesOf).getD [9]
    match lists with
    | _ :: _ :: _ => u.refuse p "only one list may be specified"
    | [] =>
      if 1 < separator.length then u.refuse p "the delimiter must be a single character"
      else u.refuse p "you must specify a list of bytes, characters, or fields"
    | [list] =>
      if 1 < separator.length then u.refuse p "the delimiter must be a single character"
      else if g.has 'd' ∧ !ofFields then
        u.refuse p "an input delimiter may be specified only when operating on fields"
      else if g.has 's' ∧ !ofFields then
        u.refuse p ("suppressing non-delimited lines makes sense\n" ++
          "\tonly when operating on fields")
      else match (Text.splitAt ',' list.toList).mapM (span? ofFields) with
        | .error text => u.refuse p text
        | .ok spans =>
          eachContent p g.operands
            (fun p operand e => p.fail 1 s!"cut: {shownText operand}: {e.text}")
            fun p _ bytes =>
              let lines := (byteLines bytes).filterMap fun l =>
                cutLine g spans (separator.headD 0) (withoutFeed l)
              p.print (lines.flatMap (· ++ [10]))

def byteClasses : List (String × (Nat → Bool)) :=
  let isUpper (n : Nat) : Bool := 65 ≤ n && n ≤ 90
  let isLower (n : Nat) : Bool := 97 ≤ n && n ≤ 122
  let isDigit (n : Nat) : Bool := 48 ≤ n && n ≤ 57
  let isAlnum (n : Nat) : Bool := isUpper n || isLower n || isDigit n
  [("upper", isUpper), ("lower", isLower), ("alpha", fun n => isUpper n || isLower n),
    ("digit", isDigit), ("alnum", isAlnum),
    ("space", fun n => n == 32 || (9 ≤ n && n ≤ 13)),
    ("blank", fun n => n == 32 || n == 9),
    ("punct", fun n => 33 ≤ n && n < 127 && !isAlnum n),
    ("cntrl", fun n => n < 32 || n == 127),
    ("print", fun n => 32 ≤ n && n < 127),
    ("graph", fun n => 32 < n && n < 127),
    ("xdigit", fun n => isDigit n || (65 ≤ n && n ≤ 70) || (97 ≤ n && n ≤ 102))]

inductive SetPart
  | bytes (bs : Bytes)
  | filler (b : UInt8)

def setByte? : List UInt8 → Option (UInt8 × List UInt8)
  | [] => none
  | 92 :: c :: rest =>
    let char := Char.ofNat c.toNat
    let digits := ((c :: rest).take 3).map fun b => Char.ofNat b.toNat
    if Format.isOctal char then
      let digits := digits.takeWhile Format.isOctal
      some (UInt8.ofNat (Format.octal digits), (c :: rest).drop digits.length)
    else match Format.controls.lookup char with
      | some n => if char = 'e' then some (c, rest) else some (UInt8.ofNat n, rest)
      | none => some (c, rest)
  | c :: rest => some (c, rest)

def asText (bs : Bytes) : String := String.ofList (textOf bs)

def setParts : Nat → Bytes → Except String (List SetPart)
  | 0, _ => .ok []
  | fuel + 1, s => do
    let inBrackets (mark : UInt8) : Option (Bytes × Bytes) :=
      match s with
      | 91 :: m :: rest =>
        let name := rest.takeWhile (· != mark)
        match rest.drop name.length with
        | n :: 93 :: rest => if m = mark ∧ n = mark then some (name, rest) else none
        | _ => none
      | _ => none
    match inBrackets 58, inBrackets 61, repetition? s, s with
    | some (name, rest), _, _, _ =>
      match byteClasses.lookup (asText name) with
      | some holds =>
        let bs := ((List.range 256).filter holds).map UInt8.ofNat
        return .bytes bs :: (← setParts fuel rest)
      | none => throw s!"invalid character class {quotedText (asText name)}"
    | _, some ([b], rest), _, _ => return .bytes [b] :: (← setParts fuel rest)
    | _, _, some (part, rest), _ => return part :: (← setParts fuel rest)
    | _, _, _, s =>
      match setByte? s with
      | none => return []
      | some (a, 45 :: rest) =>
        match setByte? rest with
        | none => return [.bytes [a, 45]]
        | some (b, rest) =>
          if b < a then
            let ends := s!"range-endpoints of '{asText [a]}-{asText [b]}'"
            throw (ends ++ " are in reverse collating sequence order")
          else
            let bs := (List.range (b.toNat + 1 - a.toNat)).map fun n => UInt8.ofNat (a.toNat + n)
            return .bytes bs :: (← setParts fuel rest)
      | some (a, rest) => return .bytes [a] :: (← setParts fuel rest)
where
  repetition? (s : Bytes) : Option (SetPart × Bytes) :=
    match s with
    | 91 :: rest =>
      match setByte? rest with
      | some (b, 42 :: rest) =>
        let digits := rest.takeWhile fun d => 48 ≤ d && d ≤ 57
        match rest.drop digits.length with
        | 93 :: rest =>
          let chars := digits.map fun d => Char.ofNat d.toNat
          if digits.head? = some 48 then
            some (.bytes (List.replicate (Format.octal chars) b), rest)
          else if digits = [] then some (.filler b, rest)
          else some (.bytes (List.replicate (Text.natOfDigits chars) b), rest)
        | _ => none
      | _ => none
    | _ => none

/-- The bytes of a set that is to be at least `size` long where it can be. -/
def setBytes (size : Nat) (parts : List SetPart) : Bytes :=
  let length : SetPart → Nat
    | .bytes bs => bs.length
    | .filler _ => 0
  let known := total length parts
  parts.flatMap fun
    | .bytes bs => bs
    | .filler b => List.replicate (size - known) b

def translate (before after : Bytes) (b : UInt8) : UInt8 :=
  match before.reverse.idxOf? b with
  | none => b
  | some n =>
    let place := before.length - 1 - n
    (after[place]?).getD (after.getLast?.getD b)

def squeeze (set : Bytes) : Bytes → Bytes
  | a :: b :: rest => if a = b ∧ set.contains a then squeeze set (b :: rest)
    else a :: squeeze set (b :: rest)
  | bytes => bytes

def tr (args : List String) (p : Process) : Process :=
  let long := [("complement", 'c'), ("delete", 'd'), ("squeeze-repeats", 's'),
    ("truncate-set1", 't')]
  let u := { Usage.plain "tr" "cCdst" "" long with inOrder := true }
  u.run args p fun g =>
    let deletes := g.has 'd'
    let squeezes := g.has 's'
    let needed := if deletes == squeezes then 2 else 1
    let most := if deletes ∧ !squeezes then 1 else 2
    let warning := "tr: warning: an unescaped backslash at end of string is not portable"
    let isOpen (s : String) : Bool := (s.toList.reverse.takeWhile (· == '\\')).length % 2 == 1
    match g.operands, g.operands.mapM fun s => setParts (s.utf8ByteSize + 1) (bytesOf s) with
    | [], _ => u.refuse p "missing operand"
    | operands, sets =>
      if operands.length < needed then
        let aim := if deletes then "both deleting and squeezing repeats" else "translating"
        let why := s!"Two strings must be given when {aim}."
        u.refuse p s!"missing operand after {quotedText (operands.headD why)}\n{why}"
      else if most < operands.length then
        let operand := quotedText ((operands[most]?).getD warning)
        if most = 1 ∧ operands.length = 2 then
          u.refuse p (s!"extra operand {operand}\n" ++
            "Only one string may be given when deleting without squeezing repeats.")
        else u.refuse p s!"extra operand {operand}"
      else match sets with
        | .error text => p.fail 1 s!"tr: {text}"
        | .ok sets =>
          let p := (operands.filter isOpen).foldl (fun p _ => p.complain warning) p
          let own := setBytes 0 (sets.headD [])
          let first := if g.hasAny "cC" then
              ((List.range 256).map UInt8.ofNat).filter fun b => !own.contains b
            else own
          let second := (sets[1]?).map (setBytes first.length)
          let first := match second with
            | some after => if g.has 't' then first.take after.length else first
            | none => first
          let out (bytes : Bytes) : Process := ((p.withInput []).print bytes).withStatus 0
          match deletes, second with
          | true, none => out (p.input.filter fun b => !first.contains b)
          | true, some after =>
            out (squeeze after (p.input.filter fun b => !first.contains b))
          | false, none => out (squeeze first p.input)
          | false, some after =>
            if after = [] ∧ !g.has 't' then
              p.fail 1 "tr: when not truncating set1, string2 must be non-empty"
            else
              let bytes := p.input.map (translate first after)
              out (if squeezes then squeeze after bytes else bytes)

def separatorList : List Char → List Bytes
  | [] => []
  | '\\' :: '0' :: rest => [] :: separatorList rest
  | '\\' :: 'n' :: rest => [10] :: separatorList rest
  | '\\' :: 't' :: rest => [9] :: separatorList rest
  | '\\' :: c :: rest => bytesOfChar c :: separatorList rest
  | c :: rest => bytesOfChar c :: separatorList rest

def joinedBy (separators : List Bytes) (texts : List Bytes) : Bytes :=
  (texts.zipIdx.map fun (text, n) =>
    (if n = 0 then [] else (separators[(n - 1) % separators.length]?).getD []) ++ text).flatten

/-- Every operand's lines; those of the text that is read are dealt out in turn. -/
def columns (p : Process) (operands : List String) :
    Except (String × OsError) (List (List Bytes)) :=
  let dashes := operands.count "-"
  let own := (byteLines p.input).map withoutFeed
  operands.zipIdx.mapM fun (operand, place) =>
    if operand = "-" then
      let n := (operands.take place).count "-"
      .ok ((own.zipIdx.filter fun l => l.2 % dashes = n).map (·.1))
    else match contentOf p operand with
      | .ok (_, bytes) => .ok ((byteLines bytes).map withoutFeed)
      | .error e => .error (operand, e)

def paste (args : List String) (p : Process) : Process :=
  let u := Usage.plain "paste" "sz" "d"
    [("delimiters", 'd'), ("serial", 's'), ("zero-terminated", 'z')]
  u.run args p fun g =>
    let separators := match separatorList ((g.value? 'd').getD "\t").toList with
      | [] => [[]]
      | list => list
    let operands := operandsOr g.operands
    let refuse (p : Process) (operand : String) (e : OsError) : Process :=
      p.fail 1 s!"paste: {shownText operand}: {e.text}"
    if g.has 's' then
      eachContent p operands refuse fun p _ bytes =>
        p.print (joinedBy separators ((byteLines bytes).map withoutFeed) ++ [10])
    else match columns p operands with
      | .error (operand, e) => refuse p operand e
      | .ok columns =>
        let p := if operands.contains "-" then p.withInput [] else p
        let height := ((columns.map List.length).max?).getD 0
        let rows := (List.range height).map fun n => columns.map fun column => (column[n]?).getD []
        (p.print (rows.flatMap fun row => joinedBy separators row ++ [10])).withStatus 0

def nl (args : List String) (p : Process) : Process :=
  let u := Usage.plain "nl" "p" "bdfhilnsvw"
    [("body-numbering", 'b'), ("line-increment", 'i'), ("number-format", 'n'),
      ("number-separator", 's'), ("starting-line-number", 'v'), ("number-width", 'w')]
  u.run args p fun g =>
    let number (c : Char) (otherwise : Nat) : Nat := ((g.value? c).map natOf).getD otherwise
    let width := number 'w' 6
    let style := (g.value? 'b').getD "t"
    let between := (g.value? 's').getD "\t"
    let label (n : Nat) : String := match g.value? 'n' with
      | some "ln" => String.ofList ((toString n).toList ++
          List.replicate (width - (toString n).length) ' ')
      | some "rz" => Text.padLeft width '0' (toString n)
      | _ => Text.padLeft width ' ' (toString n)
    let blank := String.ofList (List.replicate (width + between.length) ' ')
    let line (state : Nat × List Bytes) (l : Bytes) : Nat × List Bytes :=
      if style = "a" ∨ style = "t" ∧ l ≠ [] then
        (state.1 + number 'i' 1, (bytesOf (label state.1 ++ between) ++ l ++ [10]) :: state.2)
      else (state.1, (bytesOf blank ++ l ++ [10]) :: state.2)
    if !(["a", "t", "n"].contains style) then
      u.refuse p s!"invalid body numbering style: {quotedText style}"
    else match (g.value? 'w').filter fun w => (Text.digits? w.toList).all (· == 0) with
      | some w => p.fail 1 s!"nl: invalid line number field width: {quotedText w}"
      | none =>
        let step (state : Process × Nat) (operand : String) : Process × Nat :=
          match contentOf state.1 operand with
          | .ok (p, bytes) =>
            let (next, lines) := ((byteLines bytes).map withoutFeed).foldl line (state.2, [])
            (p.print lines.reverse.flatten, next)
          | .error e => (state.1.fail 1 s!"nl: {shownText operand}: {e.text}", state.2)
        ((operandsOr g.operands).foldl step (p.withStatus 0, number 'v' 1)).1

def folded (atBlanks : Bool) (width : Nat) : Nat → Bytes → List Bytes
  | 0, line => [line]
  | fuel + 1, line =>
    if line.length ≤ width then [line]
    else
      let piece := line.take width
      let upToBlank := (piece.reverse.dropWhile fun b => b != 32 && b != 9).reverse
      let piece := if atBlanks && !upToBlank.isEmpty then upToBlank else piece
      piece :: folded atBlanks width fuel (line.drop piece.length)

def fold (args : List String) (p : Process) : Process :=
  let u := Usage.plain "fold" "bs" "w" [("bytes", 'b'), ("spaces", 's'), ("width", 'w')]
  let args := (withWidths args)
  u.run args p fun g =>
    let given := (g.value? 'w').getD "80"
    match Text.digits? given.toList with
    | none => p.fail 1 s!"fold: invalid number of columns: {quotedText given}"
    | some 0 =>
      let why := "Numerical result out of range"
      p.fail 1 s!"fold: invalid number of columns: {quotedText given}: {why}"
    | some width =>
      eachContent p g.operands
        (fun p operand e => p.fail 1 s!"fold: {shownText operand}: {e.text}")
        fun p _ bytes => (byteLines bytes).foldl (fun p line =>
          let ending := if line.getLast? = some 10 then [10] else []
          let pieces := folded (g.has 's') width line.length (withoutFeed line)
          p.print (([10] : Bytes).intercalate pieces ++ ending)) p
where
  withWidths (args : List String) : List String :=
    args.flatMap fun arg => match arg.toList with
      | '-' :: c :: cs =>
        if (c :: cs).all Char.isDigit then ["-w", String.ofList (c :: cs)] else [arg]
      | _ => [arg]

end FunctionJar.Shell.Utility
