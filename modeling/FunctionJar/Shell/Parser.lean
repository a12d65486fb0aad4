import FunctionJar.Shell.Script
import FunctionJar.Text.Blank

namespace FunctionJar.Shell

structure Fault where
  text : String
  line : Nat
  deriving DecidableEq, Repr

/-- Where a word is read, which decides what ends it and which characters are special. -/
inductive Place
  | bare
  | quotes
  | braces (isQuoted : Bool)
  | arith
  | document
  deriving DecidableEq, Repr

namespace Place

def isQuoted : Place → Bool
  | bare => false
  | quotes => true
  | braces q => q
  | arith | document => true

def takesQuotes : Place → Bool
  | bare | braces false => true
  | _ => false

def endFault? : Place → Option String
  | bare | document => none
  | quotes | braces true => some "Unterminated quoted string"
  | braces false => some "Missing '\x7d'"
  | arith => some "Missing '))'"

def escapes (p : Place) (c : Char) : Bool :=
  p.takesQuotes || "$`\\".toList.contains c || (c == '"' && p != document)
    || (c == '\x7d' && p == braces true)

end Place

def isMeta (c : Char) : Bool := " \t\n;&|<>()".toList.contains c

def isNameStart (c : Char) : Bool := c.isAlpha || c == '_'

def isNameRest (c : Char) : Bool := c.isAlphanum || c == '_'

def isName (s : String) : Bool :=
  match s.toList with
  | [] => false
  | c :: rest => isNameStart c && rest.all isNameRest

def isSpecialName (c : Char) : Bool := "@*#?$!-".toList.contains c

def isPlain (p : Place) (c : Char) : Bool :=
  !"\\$`".toList.contains c && (c != '"' || p == .document || p == .arith) &&
    (c != '\'' || !p.takesQuotes) &&
    match p with
    | .bare => !isMeta c
    | .quotes | .document => true
    | .braces _ => c != '\x7d'
    | .arith => c != '(' && c != ')'

def takenLine : Char := '\x00'

def skipSpace : List Char → List Char
  | ' ' :: rest => skipSpace rest
  | '\t' :: rest => skipSpace rest
  | '\\' :: '\n' :: rest => skipSpace rest
  | '\x00' :: rest => skipSpace rest
  | '#' :: rest => rest.dropWhile (· != '\n')
  | s => s

def skipLines : Nat → List Char → List Char
  | 0, s => s
  | fuel + 1, s =>
    match skipSpace s with
    | '\n' :: rest => skipLines fuel rest
    | s => s

def skipAll (s : List Char) : List Char := skipLines (s.length + 1) s

def rawWord (s : List Char) : List Char := s.takeWhile fun c => !isMeta c

def keyword? (word : String) (s : List Char) : Option (List Char) :=
  let s := skipAll s
  if rawWord s = word.toList then some (s.drop word.length) else none

def closers : List String := ["then", "else", "elif", "fi", "do", "done", "esac", "\x7d"]

def keywords : List String :=
  closers ++ ["!", "\x7b", "case", "for", "if", "in", "until", "while"]

def isClosed (s : List Char) : Bool :=
  match s with
  | [] => true
  | ')' :: _ => true
  | ';' :: ';' :: _ => true
  | s => closers.contains (String.ofList (rawWord s))

def parameter? : List Char → Option (String × List Char)
  | [] => none
  | c :: rest =>
    if isNameStart c then
      some (String.ofList (c :: rest.takeWhile isNameRest), rest.dropWhile isNameRest)
    else if c.isDigit ∨ isSpecialName c then some (String.singleton c, rest)
    else none

def bracedName? (s : List Char) : Option (String × List Char) :=
  match s with
  | c :: rest =>
    if c.isDigit then
      some (String.ofList (c :: rest.takeWhile Char.isDigit), rest.dropWhile Char.isDigit)
    else parameter? s
  | [] => none

/-- The text within backquotes, where a backslash may stand before a backslash, a dollar sign or a
backquote, and between double quotes also before one of those. -/
def backquoted (isQuoted : Bool) (done : List Char) : List Char → Option (List Char × List Char)
  | [] => none
  | '`' :: rest => some (done.reverse, rest)
  | '\\' :: c :: rest =>
    if c = '`' ∨ c = '\\' ∨ c = '$' ∨ (c = '"' ∧ isQuoted) then
      backquoted isQuoted (c :: done) rest
    else backquoted isQuoted (c :: '\\' :: done) rest
  | c :: rest => backquoted isQuoted (c :: done) rest

def operator? : List Char → Option (Bool × Otherwise × List Char)
  | ':' :: '-' :: rest => some (true, .use, rest)
  | ':' :: '=' :: rest => some (true, .assign, rest)
  | ':' :: '?' :: rest => some (true, .fail, rest)
  | ':' :: '+' :: rest => some (true, .instead, rest)
  | '-' :: rest => some (false, .use, rest)
  | '=' :: rest => some (false, .assign, rest)
  | '?' :: rest => some (false, .fail, rest)
  | '+' :: rest => some (false, .instead, rest)
  | _ => none

def cut? : List Char → Option (Cut × List Char)
  | '%' :: '%' :: rest => some (⟨false, true⟩, rest)
  | '%' :: rest => some (⟨false, false⟩, rest)
  | '#' :: '#' :: rest => some (⟨true, true⟩, rest)
  | '#' :: rest => some (⟨true, false⟩, rest)
  | _ => none

inductive Braced
  | value (name : String)
  | length (name : String)
  | cut (name : String) (how : Cut)
  | otherwise (name : String) (orEmpty : Bool) (what : Otherwise)
  | bad

def braced (s : List Char) : Braced × List Char :=
  let named (s : List Char) : Braced × List Char :=
    match bracedName? s with
    | none => (.bad, s)
    | some (name, '\x7d' :: rest) => (.value name, '\x7d' :: rest)
    | some (name, rest) =>
      match cut? rest, operator? rest with
      | some (how, rest), _ => (.cut name how, rest)
      | none, some (orEmpty, what, rest) => (.otherwise name orEmpty what, rest)
      | none, none => (.bad, rest)
  match s with
  | '#' :: rest =>
    match bracedName? rest with
    | some (name, '\x7d' :: rest) => (.length name, '\x7d' :: rest)
    | _ => named s
  | s => named s

def assignmentName? (s : List Char) : Option (String × List Char) :=
  match s with
  | c :: _ =>
    if isNameStart c then
      match s.dropWhile isNameRest with
      | '=' :: rest => some (String.ofList (s.takeWhile isNameRest), rest)
      | _ => none
    else none
  | [] => none

inductive RedirectKind
  | input
  | output (forced : Bool)
  | append
  | same
  | document (dropTabs : Bool)
  deriving DecidableEq, Repr

/-- The operator of a redirection, with the descriptor it is about if none is named. -/
def redirectOperator? : List Char → Option (Nat × RedirectKind × List Char)
  | '>' :: '>' :: rest => some (1, .append, rest)
  | '>' :: '&' :: rest => some (1, .same, rest)
  | '>' :: '|' :: rest => some (1, .output true, rest)
  | '>' :: rest => some (1, .output false, rest)
  | '<' :: '<' :: '-' :: rest => some (0, .document true, rest)
  | '<' :: '<' :: rest => some (0, .document false, rest)
  | '<' :: '&' :: rest => some (0, .same, rest)
  | '<' :: '>' :: rest => some (0, .append, rest)
  | '<' :: rest => some (0, .input, rest)
  | _ => none

def redirectStart? (s : List Char) : Option (Nat × RedirectKind × List Char) :=
  match s with
  | [] => none
  | c :: rest =>
    if c.isDigit then (redirectOperator? rest).map fun (_, kind) => (c.toNat - 48, kind)
    else redirectOperator? s

def delimiter : List Part → String × Bool
  | .text s isQuoted :: rest =>
    let (word, any) := delimiter rest
    (s ++ word, isQuoted || any)
  | _ => ("", false)

/-- The lines behind the present one up to one that holds just the delimiter, and the text with
nothing left on those lines. -/
def cutDocument (dropTabs : Bool) (delimiter : String) (s : List Char) : List Char × List Char :=
  let line := s.takeWhile (· != '\n')
  let strip (l : List Char) := if dropTabs then l.dropWhile (· == '\t') else l
  let below := Text.splitAt '\n' (s.drop (line.length + 1))
  let taken := below.takeWhile (· == [takenLine])
  let below := below.drop taken.length
  let body := below.takeWhile (strip · != delimiter.toList)
  let isEnded := body.length < below.length
  let left := below.drop (body.length + 1)
  let text := ['\n'].intercalate (body.map strip)
  let gone := taken ++ List.replicate (body.length + if isEnded then 1 else 0) [takenLine]
  (text ++ (if isEnded ∧ body ≠ [] then ['\n'] else []), line ++ (gone ++ left).flatMap ('\n' :: ·))

def lineFeeds (s : List Char) : Nat := s.countP (· == '\n')

def nextPiece (s : List Char) : String × List Char :=
  let quoted (t : String) (rest : List Char) := (s!"\"{t}\"", rest)
  match skipSpace s with
  | [] => ("end of file", [])
  | '\n' :: rest => ("newline", rest)
  | ';' :: ';' :: rest => quoted ";;" rest
  | ';' :: rest => quoted ";" rest
  | '&' :: '&' :: rest => quoted "&&" rest
  | '&' :: rest => quoted "&" rest
  | '|' :: '|' :: rest => quoted "||" rest
  | '|' :: rest => quoted "|" rest
  | '(' :: rest => quoted "(" rest
  | ')' :: rest => quoted ")" rest
  | s =>
    match redirectStart? s with
    | some (_, _, rest) => ("redirection", rest)
    | none =>
      let word := String.ofList (rawWord s)
      if keywords.contains word then quoted word (s.drop word.length) else ("word", s)

/-- A simple command as far as it has been read, the last piece of each kind first. -/
structure Draft where
  line : Nat
  assigned : List (String × List Part)
  words : List (List Part)
  redirects : List Redirect

def Draft.finish (d : Draft) : Command :=
  .simple d.line d.assigned.reverse d.words.reverse d.redirects.reverse

/-- The name that a function gets by the only word of a draft. -/
def Draft.functionName? (d : Draft) : Option String :=
  match d.assigned, d.words, d.redirects with
  | [], [[.text name false]], [] => if isName name ∧ !isSpecial name then some name else none
  | _, _, _ => none

def Draft.isOneWord (d : Draft) : Bool :=
  d.assigned.isEmpty && d.words.length == 1 && d.redirects.isEmpty

/-- All of a text that is being read, of which only the number of line feeds counts. -/
structure Extent where
  feeds : Nat

def Extent.of (s : List Char) : Extent := ⟨lineFeeds s⟩

def Extent.lineAt (t : Extent) (rest : List Char) : Nat := t.feeds - lineFeeds rest + 1

/-- A draft counts as on the line where its first word ends, which comes before `rest`. -/
def Draft.begun (d : Draft) (t : Extent) (rest : List Char) : Draft :=
  if d.assigned.isEmpty && d.words.isEmpty && d.redirects.isEmpty then
    { d with line := t.lineAt rest }
  else d

def Fault.before (t : Extent) (rest : List Char) (text : String) : Fault := ⟨text, t.lineAt rest⟩

def separator? (s : List Char) : Option (Char × List Char) :=
  match skipSpace s with
  | ';' :: ';' :: _ | '&' :: '&' :: _ => none
  | ';' :: rest => some (';', rest)
  | '&' :: rest => some ('&', rest)
  | '\n' :: rest => some ('\n', rest)
  | _ => none

def separated (separator : Char) (c : Command) : Command :=
  if separator = '&' then .background c else c

mutual

def parts (t : Extent) (p : Place) : Nat → List Char → Except Fault (List Part × List Char)
  | 0, s => .error (.before t s "too deep")
  | fuel + 1, s =>
    let more (part : List Part) (rest : List Char) : Except Fault (List Part × List Char) :=
      (parts t p fuel rest).map fun (ps, rest) => (part ++ ps, rest)
    match s with
    | [] =>
      match p.endFault? with
      | none => .ok ([], [])
      | some text => .error (.before t [] text)
    | '\\' :: '\n' :: rest => more [] rest
    | '\\' :: c :: rest =>
      if p.escapes c then
        more [.text (String.singleton c) true] rest
      else more [.text "\\" true] (c :: rest)
    | ['\\'] => more [.text "\\" true] []
    | '$' :: rest => do
      let (part, rest) ← dollar t p fuel rest
      more [part] rest
    | '`' :: rest =>
      match backquoted (p == .quotes) [] rest with
      | none => .error (.before t [] "EOF in backquote substitution")
      | some (body, rest) => do
        let (script, _) ← list (.of body) true fuel body
        more [.output script p.isQuoted] rest
    | c :: rest =>
      if c = '\'' ∧ p.takesQuotes then
        match rest.dropWhile (· != '\'') with
        | [] => .error (.before t [] "Unterminated quoted string")
        | _ :: after => more [.text (String.ofList (rest.takeWhile (· != '\''))) true] after
      else if c = '"' ∧ p.takesQuotes then do
        match ← parts t .quotes fuel rest with
        | ([], _ :: after) => more [.text "" true] after
        | (inner, _ :: after) => more inner after
        | _ => .error (.before t [] "Unterminated quoted string")
      else if c = '"' ∧ p = .braces true then do
        match ← parts t .quotes fuel rest with
        | (inner, _ :: after) => more inner after
        | _ => .error (.before t [] "Unterminated quoted string")
      else if isPlain p c then
        more [.text (String.ofList (s.takeWhile (isPlain p))) p.isQuoted]
          (s.dropWhile (isPlain p))
      else if p = .arith ∧ c = '(' then do
        match ← parts t .arith fuel rest with
        | (inner, _ :: after) => more (.text "(" true :: inner ++ [.text ")" true]) after
        | _ => .error (.before t [] "Missing '))'")
      else .ok ([], s)

/-- An expression up to two closing parentheses; a single one that closes nothing stays in it. -/
def expression (t : Extent) : Nat → List Char → Except Fault (List Part × List Char)
  | 0, s => .error (.before t s "too deep")
  | fuel + 1, s => do
    match ← parts t .arith fuel s with
    | (ps, ')' :: ')' :: after) => return (ps, after)
    | (ps, _ :: after) =>
      let (more, rest) ← expression t fuel after
      return (ps ++ .text ")" true :: more, rest)
    | _ => .error (.before t [] "Missing '))'")

def dollar (t : Extent) (p : Place) : Nat → List Char → Except Fault (Part × List Char)
  | 0, s => .error (.before t s "too deep")
  | fuel + 1, '(' :: '(' :: rest => do
    let (ps, rest) ← expression t fuel rest
    return (.arith ps p.isQuoted, rest)
  | fuel + 1, '(' :: rest => do
    match ← list t true fuel rest with
    | (script, ')' :: after) => return (.output script p.isQuoted, after)
    | (_, rest) => throw (unexpected t "\")\"" fuel rest)
  | fuel + 1, '{' :: rest => do
    let (start, rest) := braced rest
    let place : Place := match start with
      | .cut .. => .braces false
      | _ => .braces p.isQuoted
    match ← parts t place fuel rest with
    | (word, _ :: after) =>
      let part : Part := match start with
        | .value name => .value name p.isQuoted
        | .length name => .length name p.isQuoted
        | .cut name how => .cut name how word p.isQuoted
        | .otherwise name orEmpty what => .otherwise name what orEmpty word p.isQuoted
        | .bad => .bad
      return (part, after)
    | (_, []) => throw (.before t [] "Missing '\x7d'")
  | _, s =>
    match parameter? s with
    | some (name, rest) => .ok (.value name p.isQuoted, rest)
    | none => .ok (.text "$" p.isQuoted, s)

/-- The complaint about the next piece where another one is expected, or about the word there if
it cannot be read. -/
def unexpected (t : Extent) (expected : String) : Nat → List Char → Fault
  | 0, s => .before t s "too deep"
  | fuel + 1, s =>
    let (name, rest) := nextPiece s
    let wanted := if expected = "" then "" else s!" (expecting {expected})"
    let text := name ++ " unexpected" ++ wanted
    if name = "word" then
      match parts t .bare fuel rest with
      | .error f => f
      | .ok (_, rest) => .before t rest text
    else .before t rest text

def behindKeyword (t : Extent) (word : String) : Nat → List Char → Except Fault (List Char)
  | 0, s => .error (.before t s "too deep")
  | fuel + 1, s =>
    match keyword? word s with
    | some rest => .ok rest
    | none => .error (unexpected t s!"\"{word}\"" fuel (skipAll s))

/-- Commands one after another, up to the end of the text or of the command around them. There may
be none if the list is open to that. -/
def list (t : Extent) (isOpen : Bool) : Nat → List Char → Except Fault (Command × List Char)
  | 0, s => .error (.before t s "too deep")
  | fuel + 1, s =>
    let s := skipAll s
    if s.isEmpty || (isOpen && isClosed s) then .ok (.nothing, s)
    else do
      let (first, rest) ← andOr t fuel s
      match separator? rest with
      | some (separator, rest) =>
        let (next, rest) ← list t true fuel rest
        return (.seq (separated separator first) next, rest)
      | none => return (first, skipSpace rest)

def line (t : Extent) : Nat → List Char → Except Fault (Command × List Char)
  | 0, s => .error (.before t s "too deep")
  | fuel + 1, s =>
    match skipSpace s with
    | [] => .ok (.nothing, [])
    | '\n' :: rest => .ok (.nothing, rest)
    | s => do
      let (first, rest) ← andOr t fuel s
      match separator? rest, skipSpace rest with
      | some ('\n', rest), _ => return (first, rest)
      | some (separator, rest), _ =>
        let (next, rest) ← line t fuel rest
        return (.seq (separated separator first) next, rest)
      | none, [] => return (first, [])
      | none, rest => throw (unexpected t "" fuel rest)

def andOr (t : Extent) : Nat → List Char → Except Fault (Command × List Char)
  | 0, s => .error (.before t s "too deep")
  | fuel + 1, s => do
    let (first, rest) ← pipeline t fuel s
    chain t fuel first rest

def chain (t : Extent) : Nat → Command → List Char → Except Fault (Command × List Char)
  | 0, _, s => .error (.before t s "too deep")
  | fuel + 1, first, s =>
    match skipSpace s with
    | '&' :: '&' :: rest => do
      let (next, rest) ← pipeline t fuel (skipAll rest)
      chain t fuel (.and first next) rest
    | '|' :: '|' :: rest => do
      let (next, rest) ← pipeline t fuel (skipAll rest)
      chain t fuel (.or first next) rest
    | s => .ok (first, s)

def pipeline (t : Extent) : Nat → List Char → Except Fault (Command × List Char)
  | 0, s => .error (.before t s "too deep")
  | fuel + 1, s =>
    let s := skipSpace s
    if rawWord s = ['!'] then do
      let (first, rest) ← command t fuel (skipSpace (s.drop 1))
      (piped t fuel first rest).map fun (c, rest) => (.not c, rest)
    else do
      let (first, rest) ← command t fuel s
      piped t fuel first rest

def piped (t : Extent) : Nat → Command → List Char → Except Fault (Command × List Char)
  | 0, _, s => .error (.before t s "too deep")
  | fuel + 1, first, s =>
    match skipSpace s with
    | '|' :: '|' :: rest => .ok (first, '|' :: '|' :: rest)
    | '|' :: rest => do
      let (next, rest) ← command t fuel (skipAll rest)
      piped t fuel (.pipe first next) rest
    | s => .ok (first, s)

def command (t : Extent) : Nat → List Char → Except Fault (Command × List Char)
  | 0, s => .error (.before t s "too deep")
  | fuel + 1, s =>
    match s with
    | '(' :: rest => do
      match ← list t false fuel rest with
      | (body, ')' :: rest) => behind t fuel (.subshell body) rest
      | (_, rest) => throw (unexpected t "\")\"" fuel rest)
    | s =>
      let rest := s.drop (rawWord s).length
      match String.ofList (rawWord s) with
      | "if" => do
        let (c, rest) ← conditional t fuel rest
        behind t fuel c rest
      | "while" => do
        let (c, rest) ← looping t false fuel rest
        behind t fuel c rest
      | "until" => do
        let (c, rest) ← looping t true fuel rest
        behind t fuel c rest
      | "for" => do
        let (c, rest) ← each t fuel rest
        behind t fuel c rest
      | "case" => do
        let (c, rest) ← choose t fuel rest
        behind t fuel c rest
      | "\x7b" => do
        let (body, rest) ← list t false fuel rest
        behind t fuel body (← behindKeyword t "\x7d" fuel rest)
      | _ =>
        let name := (nextPiece s).1
        if name = "word" ∨ name = "redirection" then
          simple t fuel ⟨t.lineAt s, [], [], []⟩ s
        else .error (unexpected t "" fuel s)

def conditional (t : Extent) : Nat → List Char → Except Fault (Command × List Char)
  | 0, s => .error (.before t s "too deep")
  | fuel + 1, s => do
    let (test, rest) ← list t false fuel s
    let (yes, rest) ← list t false fuel (← behindKeyword t "then" fuel rest)
    match keyword? "elif" rest, keyword? "else" rest with
    | some rest, _ =>
      let (no, rest) ← conditional t fuel rest
      return (.cond test yes no, rest)
    | none, some rest =>
      let (no, rest) ← list t false fuel rest
      return (.cond test yes no, ← behindKeyword t "fi" fuel rest)
    | none, none => return (.cond test yes .nothing, ← behindKeyword t "fi" fuel rest)

def doBody (t : Extent) : Nat → List Char → Except Fault (Command × List Char)
  | 0, s => .error (.before t s "too deep")
  | fuel + 1, s => do
    let (body, rest) ← list t false fuel (← behindKeyword t "do" fuel s)
    return (body, ← behindKeyword t "done" fuel rest)

def looping (t : Extent) (until_ : Bool) : Nat → List Char → Except Fault (Command × List Char)
  | 0, s => .error (.before t s "too deep")
  | fuel + 1, s => do
    let (test, rest) ← list t false fuel s
    let (body, rest) ← doBody t fuel rest
    return (.loop until_ test body, rest)

def each (t : Extent) : Nat → List Char → Except Fault (Command × List Char)
  | 0, s => .error (.before t s "too deep")
  | fuel + 1, s => do
    let s := skipSpace s
    let name := String.ofList (rawWord s)
    let rest := s.drop name.length
    if !isName name then
      match nextPiece s with
      | ("word", _) => throw (.before t (← parts t .bare fuel s).2 "Bad for loop variable")
      | (_, rest) => throw (.before t rest "Bad for loop variable")
    match keyword? "in" rest with
    | some rest =>
      let (ws, rest) ← words t fuel rest
      match separator? rest with
      | some (';', rest) | some ('\n', rest) =>
        let (body, rest) ← doBody t fuel rest
        return (.each name (some ws) body, rest)
      | _ => throw (unexpected t "" fuel rest)
    | none =>
      let rest := match skipAll rest with
        | ';' :: rest => rest
        | rest => rest
      let (body, rest) ← doBody t fuel rest
      return (.each name none body, rest)

def words (t : Extent) : Nat → List Char → Except Fault (List (List Part) × List Char)
  | 0, s => .error (.before t s "too deep")
  | fuel + 1, s =>
    match skipSpace s with
    | [] => .ok ([], [])
    | c :: rest =>
      if isMeta c then .ok ([], c :: rest)
      else do
        let (w, rest) ← parts t .bare fuel (c :: rest)
        let (ws, rest) ← words t fuel rest
        return (w :: ws, rest)

def word (t : Extent) (expected : String) : Nat → List Char → Except Fault (List Part × List Char)
  | 0, s => .error (.before t s "too deep")
  | fuel + 1, s =>
    match skipSpace s with
    | [] => .error (unexpected t expected fuel [])
    | c :: rest =>
      if isMeta c ∨ (redirectStart? (c :: rest)).isSome then
        .error (unexpected t expected fuel (c :: rest))
      else parts t .bare fuel (c :: rest)

def choose (t : Extent) : Nat → List Char → Except Fault (Command × List Char)
  | 0, s => .error (.before t s "too deep")
  | fuel + 1, s => do
    let (value, rest) ← word t "word" fuel s
    let (arms, rest) ← arms t fuel (← behindKeyword t "in" fuel rest)
    return (.choose value arms, rest)

def arms (t : Extent) :
    Nat → List Char → Except Fault (List (List (List Part) × Command) × List Char)
  | 0, s => .error (.before t s "too deep")
  | fuel + 1, s =>
    match keyword? "esac" s with
    | some rest => .ok ([], rest)
    | none => do
      let s := match skipAll s with | '(' :: rest => rest | rest => rest
      let (patterns, rest) ← alternatives t fuel s
      let (body, rest) ← list t true fuel rest
      match keyword? "esac" rest, skipAll rest with
      | some rest, _ => return ([(patterns, body)], rest)
      | none, ';' :: ';' :: rest =>
        let (others, rest) ← arms t fuel rest
        return ((patterns, body) :: others, rest)
      | none, rest => throw (unexpected t "\";;\"" fuel rest)

def alternatives (t : Extent) : Nat → List Char → Except Fault (List (List Part) × List Char)
  | 0, s => .error (.before t s "too deep")
  | fuel + 1, s => do
    let (pattern, rest) ← word t "\")\"" fuel s
    match skipSpace rest with
    | '|' :: rest => (alternatives t fuel rest).map fun (ps, rest) => (pattern :: ps, rest)
    | ')' :: rest => return ([pattern], rest)
    | rest => throw (unexpected t "\")\"" fuel rest)

def redirection (t : Extent) :
    Nat → Nat → RedirectKind → List Char → Except Fault (Redirect × List Char)
  | 0, _, _, s => .error (.before t s "too deep")
  | fuel + 1, descriptor, kind, s => do
    let (target, rest) ← word t "" fuel s
    match kind with
    | .input => return (.input descriptor target, rest)
    | .output forced => return (.output descriptor forced target, rest)
    | .append => return (.append descriptor target, rest)
    | .same =>
      match target with
      | [.text "-" _] => return (.close descriptor, rest)
      | [.text s _] =>
        if s.length = 1 ∧ s.toList.all Char.isDigit then return (.same descriptor target, rest)
        else throw (.before t rest "Bad fd number")
      | _ => return (.same descriptor target, rest)
    | .document dropTabs =>
      let (last, isQuoted) := delimiter target
      let (body, rest) := cutDocument dropTabs last rest
      if isQuoted then return (.document descriptor [.text (String.ofList body) true], rest)
      else
        let (text, _) ← parts t .document fuel body
        return (.document descriptor text, rest)

def redirections (t : Extent) : Nat → List Char → Except Fault (List Redirect × List Char)
  | 0, s => .error (.before t s "too deep")
  | fuel + 1, s =>
    match redirectStart? (skipSpace s) with
    | none => .ok ([], s)
    | some (descriptor, kind, rest) => do
      let (r, rest) ← redirection t fuel descriptor kind rest
      (redirections t fuel rest).map fun (rs, rest) => (r :: rs, rest)

def behind (t : Extent) : Nat → Command → List Char → Except Fault (Command × List Char)
  | 0, _, s => .error (.before t s "too deep")
  | fuel + 1, c, s => do
    match ← redirections t fuel s with
    | ([], rest) => return (c, rest)
    | (rs, rest) => return (.redirected c rs, rest)

def simple (t : Extent) : Nat → Draft → List Char → Except Fault (Command × List Char)
  | 0, _, s => .error (.before t s "too deep")
  | fuel + 1, d, s =>
    let s := skipSpace s
    match redirectStart? s with
    | some (descriptor, kind, rest) => do
      let (r, rest) ← redirection t fuel descriptor kind rest
      simple t fuel { d with redirects := r :: d.redirects } rest
    | none =>
      match s, assignmentName? s with
      | [], _ => .ok (d.finish, s)
      | '(' :: rest, _ =>
        if !d.isOneWord then .ok (d.finish, s)
        else match skipSpace rest with
          | ')' :: rest =>
            match d.functionName? with
            | none => .error (.before t rest "Bad function name")
            | some name =>
              (command t fuel (skipAll rest)).map fun (body, rest) =>
                (.define name body, rest)
          | rest => .error (unexpected t "\")\"" fuel rest)
      | c :: _, found =>
        if isMeta c then .ok (d.finish, s)
        else match d.words, found with
          | [], some (name, rest) => do
            let (value, rest) ← parts t .bare fuel rest
            simple t fuel { d.begun t rest with assigned := (name, value) :: d.assigned } rest
          | _, _ => do
            let (w, rest) ← parts t .bare fuel s
            simple t fuel { d.begun t rest with words := w :: d.words } rest

end

def deepEnough (s : List Char) : Nat := 8 * s.length + 16

def lines (t : Extent) : Nat → List Char → Command
  | 0, _ => .nothing
  | fuel + 1, s =>
    if s.isEmpty then .nothing
    else match line t (deepEnough s) s with
      | .error f => .broken f.line f.text
      | .ok (c, rest) => .seq c (lines t fuel rest)

def parse (script : String) : Command :=
  let s := script.toList
  lines (.of s) (s.length + 1) s

end FunctionJar.Shell
