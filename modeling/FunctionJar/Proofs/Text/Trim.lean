import FunctionJar.Text.Blank

namespace FunctionJar.Text

theorem trimStart_append {s t : List Char} (hs : ∀ c ∈ s, isBlank c = true)
    (ht : ∀ c ∈ t.head?, isBlank c = false) : trimStart (s ++ t) = t := by
  rw [trimStart, List.dropWhile_append_of_pos hs]
  cases t with
  | nil => rfl
  | cons c t => exact List.dropWhile_cons_of_neg (by simp [ht c rfl])

theorem exists_blanks (s : List Char) : ∃ w, s = w ++ trimStart s ∧ ∀ c ∈ w, isBlank c = true :=
  ⟨s.takeWhile isBlank, List.takeWhile_append_dropWhile.symm,
    fun _ => List.all_eq_true.mp List.all_takeWhile _⟩

theorem head_trimStart (s : List Char) : ∀ c ∈ (trimStart s).head?, isBlank c = false := by
  intro c hc
  have hhead := List.head?_dropWhile_not isBlank s
  rwa [← trimStart, hc] at hhead

/-- The text `t` is `s` without the blanks at both ends. -/
structure Trimmed (s t : List Char) : Prop where
  between : ∃ before behind, s = before ++ t ++ behind ∧ (∀ c ∈ before, isBlank c = true) ∧
    ∀ c ∈ behind, isBlank c = true
  head : ∀ c ∈ t.head?, isBlank c = false
  last : ∀ c ∈ t.getLast?, isBlank c = false

theorem trimmed_trim (s : List Char) : Trimmed s (trim s) := by
  obtain ⟨before, hbefore, hblank⟩ := exists_blanks s
  obtain ⟨behind, hbehind, hblank'⟩ := exists_blanks (trimStart s).reverse
  have hstart : trimStart s = trim s ++ behind.reverse := by
    rw [trim, trimEnd, ← trimStart, ← List.reverse_append, ← hbehind, List.reverse_reverse]
  refine ⟨⟨before, behind.reverse, ?_, hblank, ?_⟩, ?_, ?_⟩
  · rw [List.append_assoc, ← hstart, ← hbefore]
  · exact fun c hc => hblank' c (List.mem_reverse.mp hc)
  · intro c hc
    refine head_trimStart s c ?_
    rw [Option.mem_def] at hc ⊢
    rw [hstart, List.head?_append, hc, Option.some_or]
  · rw [trim, trimEnd, List.getLast?_reverse]
    exact head_trimStart _

end FunctionJar.Text
