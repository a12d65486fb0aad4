import FunctionJar.Proofs.Source.Seam

namespace FunctionJar.Source

/-- A fragment of a source that is read as pieces of its own in front of what may stand `behind` it.
Its brackets are closed within it, and `shown` is left of it. -/
def Fragment (behind : List Char → Prop) (s shown : List Char) : Prop :=
  ∃ ps, text ps = s ∧ (∀ rest, behind rest → Standing .curly ps rest) ∧ WellNested (codeOf ps) ∧
    ps.flatMap Piece.blanked = shown

/-- Anything may stand behind a fragment. -/
abbrev Any (_ : List Char) : Prop := True

abbrev Inert (s : List Char) : Prop := Fragment Any s s

/-- No quote stands behind a fragment. -/
abbrev NoQuote (rest : List Char) : Prop := rest.head? ≠ some '"'

def marks : List Char := ['/', '"', '\'', '(', ')', '[', ']', '{', '}']

def isPlain (c : Char) : Bool := !marks.contains c

variable {behind other : List Char → Prop} {s t shown shown' inner rest : List Char} {c o : Char}

theorem Fragment.scan_eq (h : Fragment behind s shown) (hend : behind []) :
    scan .curly s = .ok shown := by
  obtain ⟨ps, rfl, hstanding, hnested, rfl⟩ := h
  exact scan_eq_ok_iff.mpr ⟨ps, ⟨rfl, hstanding [] hend⟩, hnested, rfl⟩

theorem Fragment.mono (h : Fragment behind s shown) (hother : ∀ rest, other rest → behind rest) :
    Fragment other s shown := by
  obtain ⟨ps, htext, hstanding, hnested, hshown⟩ := h
  exact ⟨ps, htext, fun rest hrest => hstanding rest (hother rest hrest), hnested, hshown⟩

theorem Fragment.append (hs : Fragment behind s shown) (ht : Fragment other t shown')
    (h : ∀ rest, other rest → behind (t ++ rest)) : Fragment other (s ++ t) (shown ++ shown') := by
  obtain ⟨ps, rfl, hps, hpsnested, rfl⟩ := hs
  obtain ⟨qs, rfl, hqs, hqsnested, rfl⟩ := ht
  refine ⟨ps ++ qs, text_append ps qs, fun rest hrest => ?_, ?_, List.flatMap_append⟩
  · exact standing_append.mpr ⟨hps _ (h rest hrest), hqs rest hrest⟩
  · rw [codeOf_append]
    exact hpsnested.append hqsnested

theorem Fragment.any_append (hs : Fragment Any s shown) (ht : Fragment other t shown') :
    Fragment other (s ++ t) (shown ++ shown') :=
  hs.append ht fun _ _ => trivial

theorem stands_of_plain (h : c ≠ '/' ∧ ¬ IsQuote c) (rest : List Char) :
    Stands .curly (.code c) rest := by
  refine .code fun hopens => ?_
  rw [opens_iff] at hopens
  rcases hopens with hline | ⟨-, hc, -⟩ | hquote
  · obtain ⟨after, hsplit⟩ := hline
    exact h.1 (List.cons.inj hsplit).1
  · exact h.1 hc
  · exact h.2 hquote

theorem isPlain_of_kind {kind : Char → Bool} (hmarks : marks.all fun d => !kind d)
    (h : kind c = true) : isPlain c = true := by
  rw [isPlain, Bool.not_eq_true', Bool.eq_false_iff, ne_eq, List.contains_iff_mem]
  intro hmem
  have hnot := List.all_eq_true.mp hmarks c hmem
  rw [h] at hnot
  cases hnot

theorem of_isPlain (h : isPlain c = true) :
    (c ≠ '/' ∧ ¬ IsQuote c) ∧ ¬ IsOpener c ∧ ¬ IsCloser c := by
  have hne : ∀ {d}, isPlain d = false → c ≠ d := by
    rintro d hd rfl
    simp [h] at hd
  refine ⟨⟨hne (by decide), ?_⟩, ?_, ?_⟩
  · rintro (rfl | rfl) <;> cases h
  · rintro ⟨d, ⟨⟩⟩ <;> cases h
  · rintro ⟨d, ⟨⟩⟩ <;> cases h

theorem inert_of_plain (h : ∀ c ∈ s, isPlain c = true) : Inert s := by
  refine ⟨s.map .code, text_code s, fun rest _ => ?_, ?_, blanked_code s⟩
  · induction s with
    | nil => trivial
    | cons c s ih =>
        obtain ⟨hc, hs⟩ := List.forall_mem_cons.mp h
        exact ⟨stands_of_plain (of_isPlain hc).1 _, ih hs⟩
  · rw [codeOf_code]
    induction s with
    | nil => exact .nil
    | cons c s ih =>
        obtain ⟨hc, hs⟩ := List.forall_mem_cons.mp h
        obtain ⟨-, hopener, hcloser⟩ := of_isPlain hc
        exact .plain hopener hcloser (ih hs)

theorem inert_of_all (h : s.all isPlain = true) : Inert s :=
  inert_of_plain (List.all_eq_true.mp h)

theorem Fragment.wrap (hpairs : Pairs o c) (hs : Fragment behind s shown)
    (h : ∀ rest, behind (c :: rest)) : Fragment Any (o :: s ++ [c]) (o :: shown ++ [c]) := by
  obtain ⟨ps, rfl, hps, hnested, rfl⟩ := hs
  refine ⟨.code o :: ps ++ [.code c], ?_, fun rest _ => ?_, ?_, ?_⟩
  · rw [text_append]
    rfl
  · have hbrackets : ∀ {d e}, Pairs d e → (d ≠ '/' ∧ ¬ IsQuote d) ∧ e ≠ '/' ∧ ¬ IsQuote e := by
      rintro d e ⟨⟩ <;> decide
    obtain ⟨hopener, hcloser⟩ := hbrackets hpairs
    refine standing_append.mpr ⟨⟨stands_of_plain hopener _, hps _ (h rest)⟩, ?_⟩
    exact ⟨stands_of_plain hcloser _, trivial⟩
  · have hwrap := WellNested.wrap hpairs hnested .nil
    simpa [codeOf, Piece.code?] using hwrap
  · simp [Piece.blanked]

theorem inert_slash : Inert [' ', '/', ' '] := by
  have hslash : ∀ rest, ¬ Opens .curly ('/' :: ' ' :: rest) := by
    intro rest hopens
    rw [opens_iff] at hopens
    simp [lineMark, IsQuote] at hopens
  refine ⟨[' ', '/', ' '].map .code, rfl, fun rest _ => ?_, wellNested_of_plain rfl, rfl⟩
  exact ⟨stands_of_plain (by decide) _, .code (hslash rest), stands_of_plain (by decide) _, trivial⟩

theorem fragment_literal (hinner : LiteralText '"' inner) :
    Fragment NoQuote ('"' :: inner ++ ['"']) ('"' :: blank inner ++ ['"']) := by
  refine ⟨[.literal '"' inner], by simp [text, Piece.source], fun rest hrest => ⟨?_, trivial⟩, .nil,
    by simp [Piece.blanked]⟩
  exact .literal (.inl rfl) hinner fun hblock => hrest hblock.2.2

end FunctionJar.Source
