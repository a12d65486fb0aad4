import FunctionJar.Proofs.Source.Nesting

namespace FunctionJar.Source

open Text (isBlank)

variable {style : Style} {c : Char} {p : Piece} {ps : List Piece} {s t w : List Char}

theorem opens_python : Opens .python (c :: s) ↔ c = '#' ∨ IsQuote c := by
  rw [opens_iff]
  simp [lineMark]

theorem Opens.append (h : Opens style s) (t : List Char) : Opens style (s ++ t) := by
  obtain ⟨o, ho, hprefix⟩ := h
  exact ⟨o, ho, hprefix.trans (List.prefix_append s t)⟩

theorem Stands.of_append (h : Stands style p (s ++ t)) : Stands style p s := by
  cases h with
  | code hplain => exact .code fun hopens => hplain (hopens.append t)
  | lineComment hline hend =>
      refine .lineComment hline ?_
      cases s with
      | nil => exact .inl rfl
      | cons d s => exact .inr (by simpa using hend)
  | blockComment hstyle hfirst => exact .blockComment hstyle hfirst
  | literal hquote hinner hblock =>
      refine .literal hquote hinner fun ⟨hnil, hblocks, hhead⟩ => hblock ⟨hnil, hblocks, ?_⟩
      obtain ⟨s, rfl⟩ := List.head?_eq_some_iff.mp hhead
      rfl
  | textBlock hquote hblocks hinner => exact .textBlock hquote hblocks hinner

theorem Stands.append_feed (h : Stands .python p s) (t : List Char) :
    Stands .python p (s ++ '\n' :: t) := by
  cases h with
  | code hplain =>
      refine .code ?_
      rwa [opens_python, ← opens_python]
  | lineComment hline hend =>
      refine .lineComment hline (.inr ?_)
      rcases hend with rfl | hfeed
      · rfl
      · rw [List.head?_append, hfeed]
        rfl
  | blockComment hstyle hfirst => exact .blockComment hstyle hfirst
  | @literal q inner _ hquote hinner hblock =>
      refine .literal hquote hinner fun ⟨hnil, hblocks, hhead⟩ => ?_
      cases s with
      | nil => exact hquote.ne_feed (Option.some.inj hhead).symm
      | cons d s => exact hblock ⟨hnil, hblocks, hhead⟩
  | textBlock hquote hblocks hinner => exact .textBlock hquote hblocks hinner

theorem Standing.of_append (h : Standing style ps (s ++ t)) : Standing style ps s := by
  induction ps with
  | nil => trivial
  | cons p ps ih =>
      obtain ⟨hp, hps⟩ := h
      rw [← List.append_assoc] at hp
      exact ⟨hp.of_append, ih hps⟩

theorem Standing.append_feed (h : Standing .python ps s) (t : List Char) :
    Standing .python ps (s ++ '\n' :: t) := by
  induction ps with
  | nil => trivial
  | cons p ps ih =>
      obtain ⟨hp, hps⟩ := h
      rw [Standing, ← List.append_assoc]
      exact ⟨hp.append_feed t, ih hps⟩

section Brackets

theorem wellNested_of_plain (h : s.all fun c => (closer? c).isNone && !isCloser c) :
    WellNested s := by
  induction s with
  | nil => exact .nil
  | cons c s ih =>
      rw [List.all_cons, Bool.and_eq_true, Bool.and_eq_true] at h
      obtain ⟨⟨hopener, hcloser⟩, hs⟩ := h
      refine .plain (fun h => ?_) (fun h => ?_) (ih hs)
      · rw [← isSome_closer?_iff, ← Option.not_isNone, hopener] at h
        cases h
      · rw [isCloser_iff.mpr h] at hcloser
        cases hcloser

theorem WellNested.of_concat (h : WellNested (s ++ [c])) (hc : ¬ IsCloser c) : WellNested s := by
  generalize hsplit : s ++ [c] = r at h
  induction h generalizing s with
  | nil => simp at hsplit
  | plain hopener hcloser _ ih =>
      cases s with
      | nil => exact .nil
      | cons d s =>
          obtain ⟨rfl, hrest⟩ := List.cons.inj hsplit
          exact .plain hopener hcloser (ih hrest)
  | @wrap o d u v hpairs hinner hrest _ ih =>
      rcases List.eq_nil_or_concat v with rfl | ⟨v, e, rfl⟩
      · obtain ⟨rfl, -⟩ := List.cons.inj (List.append_inj' hsplit rfl).2
        exact absurd ⟨o, hpairs⟩ hc
      · rw [List.concat_eq_append, ← List.cons_append, ← List.append_assoc] at hsplit
        obtain ⟨rfl, hlast⟩ := List.append_inj' hsplit rfl
        refine .wrap hpairs hinner (ih ?_)
        rw [hlast, List.concat_eq_append]

end Brackets

section Trimming

theorem not_closer_of_blank (hc : isBlank c = true) : ¬ IsCloser c := by
  rintro ⟨o, ⟨⟩⟩ <;> cases hc

/-- A blank at the end of a source is a piece of code or the end of a comment. -/
theorem Stands.drop_blank {front : List Char} (h : Stands style p [])
    (htext : front ++ p.source = s ++ [c]) (hc : isBlank c = true) :
    (p = .code c ∧ front = s) ∨
      ∃ line, p = .comment (lineMark style ++ line ++ [c]) ∧ front ++ (lineMark style ++ line) = s ∧
        Stands style (.comment (lineMark style ++ line)) [] := by
  have hend : ∀ {x : List Char} {d : Char}, p.source = x ++ [d] → d = c ∧ front ++ x = s := by
    intro x d hsource
    rw [hsource, ← List.append_assoc] at htext
    obtain ⟨hfront, hlast⟩ := List.append_inj' htext rfl
    exact ⟨(List.cons.inj hlast).1, hfront⟩
  cases h with
  | code =>
      obtain ⟨rfl, hfront⟩ := hend (List.nil_append _).symm
      exact .inl ⟨rfl, by rwa [List.append_nil] at hfront⟩
  | @lineComment line _ hline =>
      rcases List.eq_nil_or_concat line with rfl | ⟨line, d, rfl⟩
      · cases style
        · obtain ⟨rfl, -⟩ := hend (x := ['/']) rfl
          cases hc
        · obtain ⟨rfl, -⟩ := hend (x := []) rfl
          cases hc
      · rw [List.concat_eq_append] at *
        obtain ⟨rfl, hfront⟩ := hend (List.append_assoc _ _ _).symm
        refine .inr ⟨line, by rw [List.append_assoc], hfront, .lineComment ?_ (.inl rfl)⟩
        exact fun hmem => hline (List.mem_append_left _ hmem)
  | @blockComment inner =>
      have hsource : (Piece.comment ('/' :: '*' :: inner ++ ['*', '/'])).source =
          ('/' :: '*' :: inner ++ ['*']) ++ ['/'] := by simp [Piece.source]
      obtain ⟨rfl, -⟩ := hend hsource
      cases hc
  | literal hquote | textBlock hquote =>
      obtain ⟨rfl, -⟩ := hend rfl
      rw [hquote.not_blank] at hc
      cases hc

theorem isBlank_of_mem_blank (h : c ∈ blank s) : isBlank c = true := by
  obtain ⟨d, -, rfl⟩ := List.mem_map.mp h
  split <;> rfl

/-- What is left of a source is that of another, with blanks behind it. -/
def Trails (ps qs : List Piece) : Prop :=
  ∃ w, ps.flatMap Piece.blanked = qs.flatMap Piece.blanked ++ w ∧ ∀ c ∈ w, isBlank c = true

theorem Reads.drop_blank (h : Reads style (s ++ [c]) ps) (hc : isBlank c = true)
    (hnested : WellNested (codeOf ps)) :
    ∃ qs, Reads style s qs ∧ WellNested (codeOf qs) ∧ Trails ps qs := by
  obtain ⟨htext, hstanding⟩ := h
  rcases List.eq_nil_or_concat ps with rfl | ⟨front, p, rfl⟩
  · simp [text] at htext
  · rw [List.concat_eq_append] at *
    obtain ⟨hfront, hp, -⟩ := standing_append.mp hstanding
    rw [text_append, text_cons] at htext
    rw [codeOf_append] at hnested
    rcases Stands.drop_blank (by simpa [text] using hp) (by simpa [text] using htext) hc with
      ⟨rfl, rfl⟩ | ⟨line, rfl, rfl, hline⟩
    · refine ⟨front, ⟨rfl, Standing.of_append (s := []) hfront⟩,
        hnested.of_concat (not_closer_of_blank hc), [c], ?_, by simpa using hc⟩
      simp [Piece.blanked]
    · refine ⟨front ++ [.comment (lineMark style ++ line)], ⟨?_, ?_⟩, ?_, blank [c], ?_, ?_⟩
      · simp [text, Piece.source]
      · refine standing_append.mpr ⟨?_, by simpa [text] using hline, trivial⟩
        refine Standing.of_append (t := [c]) ?_
        simpa [text, Piece.source] using hfront
      · rw [codeOf_append]
        exact hnested
      · simp [Piece.blanked, blank]
      · exact fun d hd => isBlank_of_mem_blank hd

theorem exists_trimmed (s : List Char) : ∃ w, s = Text.trimEnd s ++ w ∧ ∀ c ∈ w, isBlank c := by
  refine ⟨(s.reverse.takeWhile isBlank).reverse, ?_, fun c hc => ?_⟩
  · rw [Text.trimEnd, ← List.reverse_append, List.takeWhile_append_dropWhile, List.reverse_reverse]
  · exact List.all_eq_true.mp List.all_takeWhile c (List.mem_reverse.mp hc)

theorem Trails.trans {qs rs : List Piece} (h : Trails ps qs) (hrest : Trails qs rs) :
    Trails ps rs := by
  obtain ⟨w, hps, hw⟩ := h
  obtain ⟨v, hqs, hv⟩ := hrest
  refine ⟨v ++ w, by rw [hps, hqs, List.append_assoc], fun c hc => ?_⟩
  exact (List.mem_append.mp hc).elim (hv c) (hw c)

theorem Reads.drop_blanks (h : Reads style (s ++ w) ps) (hw : ∀ c ∈ w, isBlank c)
    (hnested : WellNested (codeOf ps)) :
    ∃ qs, Reads style s qs ∧ WellNested (codeOf qs) ∧ Trails ps qs := by
  induction w generalizing s with
  | nil =>
      rw [List.append_nil] at h
      exact ⟨ps, h, hnested, [], by simp, by simp⟩
  | cons c w ih =>
      obtain ⟨hc, hw⟩ := List.forall_mem_cons.mp hw
      rw [List.append_cons] at h
      obtain ⟨qs, hqs, hnested, htrails⟩ := ih h hw
      obtain ⟨rs, hrs, hnested, hrest⟩ := hqs.drop_blank hc hnested
      exact ⟨rs, hrs, hnested, htrails.trans hrest⟩

/-- A sound source is sound without the blanks at its end, and the same is left of it but for
them. -/
theorem Reads.trimmed (h : Reads style s ps) (hnested : WellNested (codeOf ps)) :
    ∃ qs, Reads style (Text.trimEnd s) qs ∧ WellNested (codeOf qs) ∧ Trails ps qs := by
  obtain ⟨w, hsplit, hw⟩ := exists_trimmed s
  rw [hsplit] at h
  exact h.drop_blanks hw hnested

theorem Reads.trimEnd (h : Reads style s ps) (hnested : WellNested (codeOf ps)) :
    ∃ qs, Reads style (Text.trimEnd s) qs ∧ WellNested (codeOf qs) := by
  obtain ⟨qs, hqs, hqsnested, -⟩ := h.trimmed hnested
  exact ⟨qs, hqs, hqsnested⟩

end Trimming

section Code

theorem text_code (s : List Char) : text (s.map .code) = s := by
  induction s with
  | nil => rfl
  | cons c s ih => exact congrArg (c :: ·) ih

theorem blanked_code (s : List Char) : (s.map Piece.code).flatMap Piece.blanked = s := by
  induction s with
  | nil => rfl
  | cons c s ih => exact congrArg (c :: ·) ih

theorem codeOf_code (s : List Char) : codeOf (s.map .code) = s := by
  induction s with
  | nil => rfl
  | cons c s ih => exact congrArg (c :: ·) ih

theorem standing_code (h : ∀ c ∈ s, ¬ (c = '#' ∨ IsQuote c)) :
    Standing .python (s.map .code) t := by
  induction s with
  | nil => trivial
  | cons c s ih =>
      obtain ⟨hc, hs⟩ := List.forall_mem_cons.mp h
      exact ⟨.code (mt opens_python.mp hc), ih hs⟩

theorem count_of_scan (h : scan style s = .ok t) : t.count '\n' = s.count '\n' := by
  obtain ⟨ps, ⟨rfl, -⟩, -, rfl⟩ := scan_eq_ok_iff.mp h
  clear h
  induction ps with
  | nil => rfl
  | cons p ps ih =>
      rw [List.flatMap_cons, text_cons, List.count_append, List.count_append, ih]
      exact congrArg (· + _) (count_blanked p)

end Code

end FunctionJar.Source
