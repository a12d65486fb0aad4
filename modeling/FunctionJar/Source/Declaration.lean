import FunctionJar.ClassName
import FunctionJar.Text.Blank
import FunctionJar.Text.Word

namespace FunctionJar.Source

/-- Whether `name` stands at the start of `s`, with a word boundary at its end. `before` is the
character in front of `s`. -/
def isNamed (name : List Char) (before : Option Char) (s : List Char) : Bool :=
  match name.isPrefixOf? s with
  | some rest => Text.isBoundary (name.getLast?.or before) rest.head?
  | none => false

def isNamedBehindBlanks (name : List Char) : List Char → Bool
  | [] => false
  | c :: rest =>
    Text.isBlank c && (isNamed name (some c) rest || isNamedBehindBlanks name rest)

def isDeclared (keywords : List String) (name s : List Char) : Bool :=
  keywords.any fun k =>
    match k.toList.isPrefixOf? s with
    | some rest => isNamedBehindBlanks name rest
    | none => false

/-- Whether one of `keywords`, starting at a word boundary, has blanks and `name` behind it
anywhere in the text. `before` is the character in front of the text. -/
def declaresFrom (keywords : List String) (name : List Char) : Option Char → List Char → Bool
  | _, [] => false
  | before, c :: rest =>
    (Text.isBoundary before (some c) && isDeclared keywords name (c :: rest))
      || declaresFrom keywords name (some c) rest

def declares (keywords : List String) (name s : List Char) : Bool :=
  declaresFrom keywords name none s

def isPackageRest (c : Char) : Bool := ClassName.isIdentRest c || c == '.'

def packageClause? (s : List Char) : Option (List Char) := do
  let rest ← "package".toList.isPrefixOf? (Text.trimStart s)
  let c ← rest.head?
  if !Text.isBlank c then none
  match Text.trimStart rest with
  | [] => none
  | c :: rest =>
    if ClassName.isIdentStart c then some (c :: rest.takeWhile isPackageRest) else none

def firstOnLine {α : Type} (find : List Char → Option α) : Bool → List Char → Option α
  | _, [] => none
  | atStart, c :: rest =>
    let here := if atStart then find (c :: rest) else none
    here.or (firstOnLine find (c == '\n') rest)

def declaredPackage (s : List Char) : Option String :=
  (firstOnLine packageClause? true s).map String.ofList

def isDefinition (name s : List Char) : Bool :=
  let function (t : List Char) : Bool :=
    match "def".toList.isPrefixOf? t with
    | some rest => isNamedBehindBlanks name rest
    | none => false
  let async : Bool :=
    match "async".toList.isPrefixOf? s with
    | some rest => rest.head?.any Text.isBlank && function (Text.trimStart rest)
    | none => false
  function s || async || isDeclared ["class"] name s

def isAssignment (name s : List Char) : Bool :=
  match name.isPrefixOf? s with
  | none => false
  | some rest =>
    match Text.trimStart rest with
    | '=' :: c :: _ => c != '='
    | _ => false

def binds (name s : List Char) : Bool :=
  (firstOnLine (fun t => if isDefinition name t || isAssignment name t then some () else none)
    true s).isSome

end FunctionJar.Source
