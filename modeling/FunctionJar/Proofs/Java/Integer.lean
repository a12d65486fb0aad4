import FunctionJar.Proofs.Java.Reading

namespace FunctionJar.Java

def isOctalDigit (c : Char) : Bool := '0' ≤ c && c ≤ '7'

def natOfOctal (digits : List Char) : Nat :=
  digits.foldl (fun n c => n * 8 + Text.digitValue c) 0

/-- The value of the digits of a literal whose type has so many bits. -/
def digitsValue? (negated : Bool) (bits : Nat) : List Char → Option Int
  | [] => none
  | '0' :: c :: cs =>
    if (c :: cs).all isOctalDigit ∧ natOfOctal (c :: cs) < Nat.pow 2 bits then
      some (Int.bmod (natOfOctal (c :: cs)) (Nat.pow 2 bits))
    else none
  | c :: cs =>
    let v := Text.natOfDigits (c :: cs)
    let least := Nat.pow 2 (bits - 1)
    if (c :: cs).all Char.isDigit ∧ (v < least ∨ negated ∧ v = least) then some v else none

/-- The type and the value of an integer literal, where `negated` says whether a minus sign stands
right before it. Literals to the base sixteen or two, and those with underscores, are not read. -/
def integer? (negated : Bool) (literal : List Char) : Option (Prim × Int) :=
  if literal.getLast? = some 'L' ∨ literal.getLast? = some 'l' then
    (digitsValue? negated 64 literal.dropLast).map (Prim.long, ·)
  else (digitsValue? negated 32 literal).map (Prim.int, ·)

example : integer? false "010".toList = some (.int, 8) ∧ integer? false "08".toList = none ∧
    integer? false "037777777777".toList = some (.int, -1) ∧
    integer? false "2147483648".toList = none ∧
    integer? true "2147483648".toList = some (.int, 2147483648) := by
  decide

theorem digitsValue?_of_isPlain {digits : List Char} (h : Tree.isPlain digits) {bits : Nat}
    (hrange : Text.natOfDigits digits < Nat.pow 2 (bits - 1)) (negated : Bool) :
    digitsValue? negated bits digits = some (Text.natOfDigits digits : Int) := by
  rw [Tree.isPlain, Bool.and_eq_true] at h
  obtain ⟨hall, hlength⟩ := h
  unfold digitsValue?
  split
  · simp at hlength
  · simp at hlength
  · exact if_pos ⟨hall, .inl hrange⟩

theorem integer?_int {digits : List Char} (h : Tree.isPlain digits)
    (hrange : Text.natOfDigits digits < Nat.pow 2 31) (negated : Bool) :
    integer? negated digits = some (.int, (Text.natOfDigits digits : Int)) := by
  have hlast : ∀ c, c.isDigit = false → digits.getLast? ≠ some c := by
    intro c hc hlast
    rw [Tree.isPlain, Bool.and_eq_true, List.all_eq_true] at h
    have hdigit := h.1 c (List.mem_of_getLast? hlast)
    rw [hc] at hdigit
    cases hdigit
  rw [integer?, if_neg (not_or.mpr ⟨hlast 'L' rfl, hlast 'l' rfl⟩),
    digitsValue?_of_isPlain h hrange, Option.map_some]

theorem integer?_long {digits : List Char} (h : Tree.isPlain digits)
    (hrange : Text.natOfDigits digits < Nat.pow 2 63) (negated : Bool) :
    integer? negated (digits ++ ['L']) = some (.long, (Text.natOfDigits digits : Int)) := by
  rw [integer?, if_pos (.inl List.getLast?_concat), List.dropLast_concat,
    digitsValue?_of_isPlain h hrange, Option.map_some]

def integers (ts : List Token) : List (List Char) :=
  ts.filterMap fun
    | .number text => if '.' ∈ text then none else some text
    | _ => none

theorem point_not_mem_toString (v : Nat) : '.' ∉ (toString v).toList :=
  point_not_mem fun _ => Text.isDigit_of_mem_toString

theorem integers_append (ts us : List Token) : integers (ts ++ us) = integers ts ++ integers us :=
  List.filterMap_append

theorem integers_int (v : Nat) : integers (Expr.int v).tokens = [(toString v).toList] := by
  simp only [integers, Expr.tokens, List.filterMap_cons, List.filterMap_nil,
    if_neg (point_not_mem_toString v)]

theorem integers_long (v : Nat) :
    integers (Expr.long v).tokens = [(toString v).toList ++ ['L']] := by
  have hpoint : '.' ∉ (toString v).toList ++ ['L'] := by
    rw [List.mem_append, not_or]
    exact ⟨point_not_mem_toString v, by decide⟩
  simp only [integers, Expr.tokens, List.filterMap_cons, List.filterMap_nil, if_neg hpoint]

theorem integers_negated (e : Expr) : integers e.negated.tokens = integers e.tokens := by
  unfold Expr.negated
  split <;> simp [Expr.tokens, integers]

end FunctionJar.Java
