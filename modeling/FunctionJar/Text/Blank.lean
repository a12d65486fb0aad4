namespace FunctionJar.Text

def isBlank (c : Char) : Bool :=
  let n := c.toNat
  (9 ≤ n && n ≤ 13) || n == 0x20 || n == 0x85 || n == 0xA0 || n == 0x1680
    || (0x2000 ≤ n && n ≤ 0x200A) || n == 0x2028 || n == 0x2029 || n == 0x202F
    || n == 0x205F || n == 0x3000

def trimStart (s : List Char) : List Char := s.dropWhile isBlank

def trimEnd (s : List Char) : List Char := (s.reverse.dropWhile isBlank).reverse

def trim (s : List Char) : List Char := trimEnd (trimStart s)

/-- The text cut at every `sep`, so that one more piece than separators comes out. -/
def splitAt (sep : Char) : List Char → List (List Char)
  | [] => [[]]
  | c :: rest =>
    if c = sep then [] :: splitAt sep rest
    else match splitAt sep rest with
      | [] => [[c]]
      | piece :: pieces => (c :: piece) :: pieces

theorem splitAt_ne_nil (sep : Char) (s : List Char) : splitAt sep s ≠ [] := by
  cases s with
  | nil => simp [splitAt]
  | cons c rest =>
    unfold splitAt
    split
    · simp
    · split <;> simp

theorem intercalate_splitAt (sep : Char) (s : List Char) :
    List.intercalate [sep] (splitAt sep s) = s := by
  induction s with
  | nil => rfl
  | cons c rest ih =>
    unfold splitAt
    split
    · next h =>
      cases hs : splitAt sep rest with
      | nil => exact absurd hs (splitAt_ne_nil sep rest)
      | cons p ps => rw [hs] at ih; simp_all [List.intercalate, List.intersperse]
    · cases hs : splitAt sep rest with
      | nil => exact absurd hs (splitAt_ne_nil sep rest)
      | cons p ps =>
        rw [hs] at ih
        cases ps <;> simp_all [List.intercalate, List.intersperse]

def dropReturn (line : List Char) : List Char :=
  if line.getLast? = some '\r' then line.dropLast else line

/-- The lines of a text. Text after the last line feed counts as a line unless it is empty, and
keeps a carriage return at its end. -/
def lines (s : List Char) : List (List Char) :=
  let pieces := splitAt '\n' s
  let closed := pieces.dropLast.map dropReturn
  match pieces.getLast? with
  | none | some [] => closed
  | some last => closed ++ [last]

def lower (s : String) : String := String.ofList (s.toList.map Char.toLower)

def upper (s : String) : String := String.ofList (s.toList.map Char.toUpper)

def sameLetters (a b : String) : Bool := lower a == lower b

def trimText (s : String) : String := String.ofList (trim s.toList)

def isBlankText (s : String) : Bool := s.toList.all isBlank

def join (sep : String) (parts : List String) : String := sep.intercalate parts

end FunctionJar.Text
