import FunctionJar.Source.Indentation

namespace FunctionJar.Source

open Text (isBlank)

/-- What a line is indented with, if something is seen on it. -/
def indented? (line : List Char) : Option (List Char) :=
  if line.all isBlank then none else some (indent line)

/-- What the lines are indented with on which something is seen. `front` is what a line has begun
with, as long as that is blank. -/
def indents : Option (List Char) → List Char → List (List Char)
  | _, [] => []
  | front, c :: s =>
    if c = '\n' then indents (some []) s
    else match front with
      | none => indents none s
      | some w => if isBlank c then indents (some (w ++ [c])) s else indent w :: indents none s

section Lines

variable {c d : Char} {w s : List Char} {front : Option (List Char)}

theorem ne_of_not_blank (hc : isBlank c = false) (hd : isBlank d = true) : c ≠ d := by
  rintro rfl
  rw [hc] at hd
  cases hd

theorem indent_append (hspace : c ≠ ' ') (htab : c ≠ '\t') (w s : List Char) :
    indent (w ++ c :: s) = indent w := by
  induction w with
  | nil => simp [indent, hspace, htab]
  | cons d w ih =>
      simp only [indent] at ih
      simp only [indent, List.cons_append, List.takeWhile_cons, ih]

theorem indented?_of_blank (h : s.all isBlank = true) : indented? s = none := if_pos h

theorem indented?_dropReturn (line : List Char) :
    indented? (Text.dropReturn line) = indented? line := by
  unfold Text.dropReturn
  split
  · next hlast =>
      obtain ⟨front, rfl⟩ := List.getLast?_eq_some_iff.mp hlast
      have hindent : indent (front ++ ['\r']) = indent front :=
        indent_append (by decide) (by decide) front []
      have hblank : (front ++ ['\r']).all isBlank = front.all isBlank := by
        rw [List.all_append]
        exact Bool.and_true _
      rw [List.dropLast_concat, indented?, indented?, hindent, hblank]
  · rfl

theorem filterMap_lines (s : List Char) :
    (Text.lines s).filterMap indented? = (Text.splitAt '\n' s).filterMap indented? := by
  have hclosed : ∀ pieces : List (List Char),
      (pieces.map Text.dropReturn).filterMap indented? = pieces.filterMap indented? := by
    intro pieces
    rw [List.filterMap_map]
    exact congrArg (List.filterMap · pieces) (funext indented?_dropReturn)
  rcases List.eq_nil_or_concat (Text.splitAt '\n' s) with hnil | ⟨front, last, hsplit⟩
  · exact absurd hnil (Text.splitAt_ne_nil '\n' s)
  · rw [Text.lines, hsplit]
    cases last with
    | nil => simp [hclosed, indented?]
    | cons c last => simp [hclosed]

theorem filterMap_splitAt (s : List Char) :
    (∀ w, w.all isBlank = true →
      ((Text.splitAt '\n' s).modifyHead (w ++ ·)).filterMap indented? = indents (some w) s) ∧
    (Text.splitAt '\n' s).tail.filterMap indented? = indents none s := by
  induction s with
  | nil =>
      refine ⟨fun w hw => ?_, rfl⟩
      rw [Text.splitAt, List.modifyHead_cons, List.append_nil,
        List.filterMap_cons_none (indented?_of_blank hw)]
      rfl
  | cons c s ih =>
      obtain ⟨ihsome, ihnone⟩ := ih
      by_cases hc : c = '\n'
      · have hstart := ihsome [] rfl
        have hid : (Text.splitAt '\n' s).modifyHead ([] ++ ·) = Text.splitAt '\n' s :=
          congrFun List.modifyHead_id _
        rw [hid] at hstart
        rw [Text.splitAt, if_pos hc]
        constructor
        · intro w hw
          rw [List.modifyHead_cons, List.append_nil,
            List.filterMap_cons_none (indented?_of_blank hw), hstart, indents, if_pos hc]
        · rw [List.tail_cons, hstart, indents, if_pos hc]
      · obtain ⟨first, rest, hsplit⟩ := List.exists_cons_of_ne_nil (Text.splitAt_ne_nil '\n' s)
        rw [hsplit] at ihsome ihnone
        rw [Text.splitAt, if_neg hc, hsplit]
        simp only [List.modifyHead_cons, List.tail_cons] at ihsome ihnone ⊢
        constructor
        · intro w hw
          rw [indents, if_neg hc]
          by_cases hblank : isBlank c = true
          · have hnext := ihsome (w ++ [c]) (by simp [hw, hblank])
            rw [List.append_assoc] at hnext
            simp only [hblank, if_true]
            exact hnext
          · have hseen : (w ++ c :: first).all isBlank = false := by simp [hblank]
            have hindented : indented? (w ++ c :: first) = some (indent w) := by
              have hne := fun d => ne_of_not_blank (d := d) (Bool.eq_false_iff.mpr hblank)
              rw [indented?, hseen, indent_append (hne _ rfl) (hne _ rfl)]
              rfl
            simp only [hblank]
            rw [List.filterMap_cons_some hindented, ihnone]
            rfl
        · rw [indents, if_neg hc, ihnone]

theorem indents_eq (s : List Char) :
    (Text.lines s).filterMap indented? = indents (some []) s := by
  rw [filterMap_lines, ← (filterMap_splitAt s).1 [] rfl]
  exact congrArg _ (congrFun List.modifyHead_id _).symm

theorem indents_feed (front : Option (List Char)) (s : List Char) :
    indents front ('\n' :: s) = indents (some []) s := by
  cases front <;> exact if_pos rfl

theorem indents_none (h : c ≠ '\n') : indents none (c :: s) = indents none s := by
  rw [indents, if_neg h]

theorem indents_white (hblank : isBlank c = true) (h : c ≠ '\n') :
    indents front (c :: s) = indents (front.map (· ++ [c])) s := by
  cases front with
  | none => exact indents_none h
  | some w =>
      rw [indents, if_neg h]
      exact if_pos hblank

theorem indents_seen (hblank : isBlank c = false) :
    indents (some w) (c :: s) = indent w :: indents none s := by
  rw [indents, if_neg (ne_of_not_blank hblank rfl)]
  exact if_neg (by simp [hblank])

theorem mem_indents_seen {i : List Char} (hblank : isBlank c = false) :
    i ∈ indents front (c :: s) ↔ (∃ w, front = some w ∧ i = indent w) ∨ i ∈ indents none s := by
  cases front with
  | none => simp [indents_none (ne_of_not_blank hblank rfl)]
  | some w => simp [indents_seen hblank]

theorem indents_spaces (n : Nat) (s : List Char) :
    (∀ w, indents (some w) (List.replicate n ' ' ++ s) =
      indents (some (w ++ List.replicate n ' ')) s) ∧
    indents none (List.replicate n ' ' ++ s) = indents none s := by
  induction n with
  | zero => simp
  | succ n ih =>
      constructor
      · intro w
        rw [List.replicate_succ, List.cons_append, indents_white rfl (by decide), Option.map_some,
          ih.1]
        simp
      · rw [List.replicate_succ, List.cons_append, indents_none (by decide), ih.2]

theorem mixed_from (lines : List (List Char)) (seen : Indented) (number : Nat)
    (hseen : (seen.tabs && seen.spaces) = false) :
    (∃ n, indentFaultFrom number (some seen) lines = some (.mixed n)) ↔
      (seen.tabs = true ∨ ∃ i ∈ lines.filterMap indented?, '\t' ∈ i) ∧
      (seen.spaces = true ∨ ∃ i ∈ lines.filterMap indented?, ' ' ∈ i) := by
  induction lines generalizing seen number with
  | nil =>
      obtain ⟨tabs, spaces⟩ := seen
      cases tabs <;> cases spaces <;> simp [indentFaultFrom] at hseen ⊢
  | cons line lines ih =>
      rw [indentFaultFrom]
      by_cases hblank : line.all isBlank = true
      · rw [if_pos hblank, List.filterMap_cons_none (indented?_of_blank hblank)]
        exact ih seen (number + 1) hseen
      · have hindented : indented? line = some (indent line) := if_neg hblank
        rw [if_neg hblank, List.filterMap_cons_some hindented]
        simp only [Option.isNone_some, Bool.false_and, Bool.false_eq_true, if_false,
          Option.getD_some, List.mem_cons, exists_eq_or_imp]
        by_cases hnow : ((seen.tabs || (indent line).contains '\t') &&
            (seen.spaces || (indent line).contains ' ')) = true
        · rw [if_pos hnow]
          simp only [Bool.and_eq_true, Bool.or_eq_true, List.contains_iff_mem] at hnow
          refine iff_of_true ⟨number, rfl⟩ ⟨?_, ?_⟩
          · exact hnow.1.imp_right .inl
          · exact hnow.2.imp_right .inl
        · rw [if_neg hnow, ih _ _ (Bool.eq_false_iff.mpr hnow)]
          simp only [Bool.or_eq_true, List.contains_iff_mem, or_assoc]

theorem mixed_iff {s : List Char}
    (hfirst : ∀ i, (indents (some []) s).head? = some i → i = []) :
    (∃ n, indentFault? s = some (.mixed n)) ↔
      (∃ i ∈ indents (some []) s, '\t' ∈ i) ∧ ∃ i ∈ indents (some []) s, ' ' ∈ i := by
  rw [← indents_eq] at *
  rw [indentFault?]
  generalize Text.lines s = lines at *
  generalize 1 = number
  induction lines generalizing number with
  | nil => simp [indentFaultFrom]
  | cons line lines ih =>
      rw [indentFaultFrom]
      by_cases hblank : line.all isBlank = true
      · rw [List.filterMap_cons_none (indented?_of_blank hblank)] at *
        rw [if_pos hblank]
        exact ih hfirst (number + 1)
      · have hindented : indented? line = some (indent line) := if_neg hblank
        rw [List.filterMap_cons_some hindented] at *
        have hindent : indent line = [] := hfirst _ rfl
        have hrest := mixed_from lines ⟨false, false⟩ (number + 1) rfl
        rw [if_neg hblank, hindent]
        simpa using hrest

end Lines

end FunctionJar.Source
