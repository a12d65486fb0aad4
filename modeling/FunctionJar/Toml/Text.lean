import FunctionJar.Text.Utf8

namespace FunctionJar.Toml

def isPlain (c : Char) : Bool := c == '\t' || (32 ≤ c.toNat && c.toNat != 127)

def isGap (c : Char) : Bool := c == ' ' || c == '\t'

def push (c : Char) : Option (List Char × List Char) → Option (List Char × List Char)
  | some (text, rest) => some (c :: text, rest)
  | none => none

def hexChar (digits : List Char) : Option Char := do
  let values ← digits.mapM Text.hexValue?
  let n := values.foldl (fun n v => n * 16 + v) 0
  if n.isValidChar then some (Char.ofNat n) else none

def simpleEscape : Char → Option Char
  | 'b' => some '\x08'
  | 't' => some '\t'
  | 'n' => some '\n'
  | 'f' => some '\x0c'
  | 'r' => some '\r'
  | '"' => some '"'
  | '\\' => some '\\'
  | _ => none

def basic : List Char → Option (List Char × List Char)
  | [] => none
  | '"' :: rest => some ([], rest)
  | '\\' :: 'u' :: a :: b :: c :: d :: rest => do
    push (← hexChar [a, b, c, d]) (basic rest)
  | '\\' :: 'U' :: a :: b :: c :: d :: e :: f :: g :: h :: rest => do
    push (← hexChar [a, b, c, d, e, f, g, h]) (basic rest)
  | '\\' :: c :: rest => do push (← simpleEscape c) (basic rest)
  | c :: rest => if isPlain c && c != '\\' then push c (basic rest) else none

def literal : List Char → Option (List Char × List Char)
  | [] => none
  | '\'' :: rest => some ([], rest)
  | c :: rest => if isPlain c then push c (literal rest) else none

/-- The end of a text in three quotes, with up to two quotes that belong to it. -/
def closing (quote : Char) (s : List Char) : Option (List Char × List Char) :=
  let quotes := s.takeWhile (· == quote)
  if quotes.length < 3 then none
  else
    let kept := min (quotes.length - 3) 2
    some (List.replicate kept quote, s.drop (kept + 3))

def endsLine (s : List Char) : Bool :=
  match s.dropWhile isGap with
  | '\n' :: _ | '\r' :: '\n' :: _ => true
  | _ => false

/-- The rest of a text in three double quotes. While `skipping` gaps and line ends are left out,
as after a backslash at the end of a line. -/
def multiBasic (skipping : Bool) : List Char → Option (List Char × List Char)
  | [] => none
  | '\r' :: '\n' :: rest =>
    if skipping then multiBasic true rest else push '\n' (multiBasic false rest)
  | '\n' :: rest =>
    if skipping then multiBasic true rest else push '\n' (multiBasic false rest)
  | '\\' :: 'u' :: a :: b :: c :: d :: rest => do
    push (← hexChar [a, b, c, d]) (multiBasic false rest)
  | '\\' :: 'U' :: a :: b :: c :: d :: e :: f :: g :: h :: rest => do
    push (← hexChar [a, b, c, d, e, f, g, h]) (multiBasic false rest)
  | '\\' :: c :: rest =>
    if endsLine (c :: rest) then multiBasic true (c :: rest)
    else do push (← simpleEscape c) (multiBasic false rest)
  | c :: rest =>
    if skipping && isGap c then multiBasic true rest
    else match if c = '"' then closing '"' (c :: rest) else none with
      | some done => some done
      | none => if isPlain c && c != '\\' then push c (multiBasic false rest) else none

def multiLiteral : List Char → Option (List Char × List Char)
  | [] => none
  | '\r' :: '\n' :: rest => push '\n' (multiLiteral rest)
  | '\n' :: rest => push '\n' (multiLiteral rest)
  | c :: rest =>
    match if c = '\'' then closing '\'' (c :: rest) else none with
    | some done => some done
    | none => if isPlain c then push c (multiLiteral rest) else none

def dropLineEnd : List Char → List Char
  | '\r' :: '\n' :: rest => rest
  | '\n' :: rest => rest
  | s => s

def text : List Char → Option (List Char × List Char)
  | '"' :: '"' :: '"' :: rest => multiBasic false (dropLineEnd rest)
  | '"' :: rest => basic rest
  | '\'' :: '\'' :: '\'' :: rest => multiLiteral (dropLineEnd rest)
  | '\'' :: rest => literal rest
  | _ => none

end FunctionJar.Toml
