namespace FunctionJar.Source

inductive Style
  | curly
  | python
  deriving DecidableEq, Repr

inductive Piece
  | code (c : Char)
  | comment (text : List Char)
  | literal (quote : Char) (inner : List Char)
  deriving DecidableEq, Repr

inductive Opened
  | blockComment
  | textBlock
  | literal
  deriving DecidableEq, Repr

structure Pieces where
  pieces : List Piece
  leftOpen : Option Opened
  deriving DecidableEq, Repr

def closeComment : List Char → Option Nat
  | '*' :: '/' :: _ => some 2
  | _ :: rest => (closeComment rest).map (· + 1)
  | [] => none

/-- How many characters there are up to the end of the first quote on this line that has no
backslash before it. An escaped line feed does not end the line. -/
def closeLiteral (quote : Char) : List Char → Option Nat
  | [] => none
  | ['\\'] => none
  | '\\' :: _ :: rest => (closeLiteral quote rest).map (· + 2)
  | c :: rest =>
    if c = '\n' then none
    else if c = quote then some 1
    else (closeLiteral quote rest).map (· + 1)

/-- How many characters there are up to the end of the first three quotes in a row, where a
character behind a backslash does not count. -/
def closeBlock (quote : Char) : List Char → Option Nat
  | [] => none
  | ['\\'] => none
  | '\\' :: _ :: rest => (closeBlock quote rest).map (· + 2)
  | c :: rest =>
    if (c :: rest).take 3 = [quote, quote, quote] then some 3
    else (closeBlock quote rest).map (· + 1)

inductive Start
  | code
  | lineComment
  | blockComment
  | literal
  | textBlock
  deriving DecidableEq, Repr

def startOf (style : Style) (c : Char) (rest : List Char) : Start :=
  if style = .curly ∧ c = '/' ∧ rest.head? = some '/' then .lineComment
  else if style = .python ∧ c = '#' then .lineComment
  else if style = .curly ∧ c = '/' ∧ rest.head? = some '*' then .blockComment
  else if c = '"' ∨ c = '\'' then
    if rest.take 2 = [c, c] ∧ (style = .python ∨ c = '"') then .textBlock else .literal
  else .code

def pieceAt (style : Style) (c : Char) (rest : List Char) : Except Opened (Piece × Nat) :=
  match startOf style c rest with
  | .code => .ok (.code c, 0)
  | .lineComment =>
    let text := rest.takeWhile (· ≠ '\n')
    .ok (.comment (c :: text), text.length)
  | .blockComment =>
    match closeComment (rest.drop 1) with
    | some n => .ok (.comment (c :: rest.take (n + 1)), n + 1)
    | none => .error .blockComment
  | .textBlock =>
    match closeBlock c (rest.drop 2) with
    | some n => .ok (.literal c (rest.take (n + 1)), n + 2)
    | none => .error .textBlock
  | .literal =>
    match closeLiteral c rest with
    | some n => .ok (.literal c (rest.take (n - 1)), n)
    | none => .error .literal

def piecesFrom (style : Style) : Nat → List Char → Pieces
  | _, [] => ⟨[], none⟩
  | skip + 1, _ :: rest => piecesFrom style skip rest
  | 0, c :: rest =>
    match pieceAt style c rest with
    | .error what => ⟨[], some what⟩
    | .ok (piece, n) =>
      let ps := piecesFrom style n rest
      ⟨piece :: ps.pieces, ps.leftOpen⟩

def pieces (style : Style) (s : List Char) : Pieces := piecesFrom style 0 s

def blank (s : List Char) : List Char := s.map fun c => if c = '\n' then '\n' else ' '

def Piece.blanked : Piece → List Char
  | code c => [c]
  | comment text => blank text
  | literal quote inner => quote :: blank inner ++ [quote]

end FunctionJar.Source
