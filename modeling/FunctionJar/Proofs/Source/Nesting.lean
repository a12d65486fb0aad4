import FunctionJar.Proofs.Source.Reading

namespace FunctionJar.Source

inductive Pairs : Char → Char → Prop
  | round : Pairs '(' ')'
  | square : Pairs '[' ']'
  | curly : Pairs '{' '}'

def IsOpener (c : Char) : Prop := ∃ d, Pairs c d

def IsCloser (c : Char) : Prop := ∃ d, Pairs d c

inductive WellNested : List Char → Prop
  | nil : WellNested []
  | plain {c : Char} {s : List Char} (hopener : ¬ IsOpener c) (hcloser : ¬ IsCloser c)
      (hrest : WellNested s) : WellNested (c :: s)
  | wrap {o c : Char} {s t : List Char} (hpairs : Pairs o c) (hinner : WellNested s)
      (hrest : WellNested t) : WellNested (o :: s ++ c :: t)

def Piece.code? : Piece → Option Char
  | code c => some c
  | _ => none

def codeOf (ps : List Piece) : List Char := ps.filterMap Piece.code?

/-- The line behind pieces with which a source begins. -/
def lineBehind (ps : List Piece) : Nat := 1 + (text ps).count '\n'

/-- Nothing is wrong with the brackets in these pieces, but these are open behind them, innermost
first: in front of each, behind it and between any two all is well nested. -/
inductive Open : List Piece → List Bracket → Prop
  | none {ps : List Piece} (hnested : WellNested (codeOf ps)) : Open ps []
  | bracket {ps qs : List Piece} {o : Char} {bs : List Bracket} (hopen : Open ps bs)
      (hopener : IsOpener o) (hnested : WellNested (codeOf qs)) :
      Open (ps ++ .code o :: qs) (⟨o, lineBehind ps⟩ :: bs)

/-- The first thing wrong with a source. -/
inductive Wrong (style : Style) (s : List Char) : String → Prop
  | leftOpen {ps : List Piece} {rest : List Char} {bs : List Bracket} {what : String}
      (hsource : s = text ps ++ rest) (hstanding : Standing style ps rest) (hopen : Open ps bs)
      (hunclosed : Unclosed style rest what) :
      Wrong style s s!"line {lineBehind ps}: unterminated {what}"
  | unexpected {ps : List Piece} {c : Char} {rest : List Char}
      (hsource : s = text ps ++ c :: rest) (hstanding : Standing style (ps ++ [.code c]) rest)
      (hopen : Open ps []) (hcloser : IsCloser c) :
      Wrong style s s!"line {lineBehind ps}: unexpected '{c}'"
  | mismatch {ps : List Piece} {c : Char} {rest : List Char} {b : Bracket} {bs : List Bracket}
      (hsource : s = text ps ++ c :: rest) (hstanding : Standing style (ps ++ [.code c]) rest)
      (hopen : Open ps (b :: bs)) (hcloser : IsCloser c) (hother : ¬ Pairs b.opener c) :
      Wrong style s
        s!"line {lineBehind ps}: '{c}' does not close '{b.opener}' opened at line {b.line}"
  | neverClosed {ps : List Piece} {b : Bracket} {bs : List Bracket} (hreads : Reads style s ps)
      (hopen : Open ps (b :: bs)) :
      Wrong style s s!"line {b.line}: '{b.opener}' is never closed"

theorem WellNested.append {s t : List Char} (hs : WellNested s) (ht : WellNested t) :
    WellNested (s ++ t) := by
  induction hs with
  | nil => exact ht
  | plain hopener hcloser _ ih => exact .plain hopener hcloser ih
  | wrap hpairs hinner _ _ ih =>
      rw [List.append_assoc, List.cons_append]
      exact .wrap hpairs hinner ih

theorem codeOf_append (ps qs : List Piece) : codeOf (ps ++ qs) = codeOf ps ++ codeOf qs :=
  List.filterMap_append

theorem lineBehind_append (ps qs : List Piece) :
    lineBehind (ps ++ qs) = lineBehind ps + (text qs).count '\n' := by
  rw [lineBehind, lineBehind, text_append, List.count_append, Nat.add_assoc]

theorem Open.append {ps qs : List Piece} {bs : List Bracket} (h : Open ps bs)
    (hnested : WellNested (codeOf qs)) : Open (ps ++ qs) bs := by
  cases h with
  | none hps =>
      refine .none ?_
      rw [codeOf_append]
      exact hps.append hnested
  | bracket hopen hopener hps =>
      rw [List.append_assoc, List.cons_append]
      refine .bracket hopen hopener ?_
      rw [codeOf_append]
      exact hps.append hnested

theorem closer?_eq_some_iff {o c : Char} : closer? o = some c ↔ Pairs o c := by
  constructor
  · intro h
    unfold closer? at h
    split at h <;> cases h
    · exact .round
    · exact .square
    · exact .curly
  · rintro ⟨⟩ <;> rfl

theorem isSome_closer?_iff {c : Char} : (closer? c).isSome = true ↔ IsOpener c := by
  rw [Option.isSome_iff_exists]
  exact exists_congr fun d => closer?_eq_some_iff

theorem isCloser_iff {c : Char} : isCloser c = true ↔ IsCloser c := by
  constructor
  · intro h
    simp only [isCloser, Bool.or_eq_true, beq_iff_eq] at h
    rcases h with (rfl | rfl) | rfl
    · exact ⟨_, .round⟩
    · exact ⟨_, .square⟩
    · exact ⟨_, .curly⟩
  · rintro ⟨d, ⟨⟩⟩ <;> rfl

theorem IsOpener.not_closer {c : Char} (h : IsOpener c) : ¬ IsCloser c := by
  obtain ⟨d, ⟨⟩⟩ := h <;> rintro ⟨e, ⟨⟩⟩

section Run

variable {line l : Nat} {bs bs' : List Bracket} {c o : Char} {p : Piece} {ps qs : List Piece}

theorem count_blanked (p : Piece) : feeds p.blanked = p.source.count '\n' := by
  have hblank : ∀ s : List Char, (blank s).count '\n' = s.count '\n' := by
    intro s
    induction s with
    | nil => rfl
    | cons c s ih =>
        rw [blank, List.map_cons, List.count_cons, List.count_cons, ← ih]
        by_cases hc : c = '\n'
        · rw [if_pos hc, hc]
          rfl
        · rw [if_neg hc, beq_false_of_ne hc]
          rfl
  cases p with
  | code c => rfl
  | comment text => exact hblank text
  | literal quote inner => simp [feeds, Piece.blanked, Piece.source, List.count_cons, hblank]

theorem step_opener (h : IsOpener c) : Bracket.step line bs c = .ok (⟨c, line⟩ :: bs) := by
  unfold Bracket.step
  rw [if_pos (isSome_closer?_iff.mpr h)]

theorem step_plain (hopener : ¬ IsOpener c) (hcloser : ¬ IsCloser c) :
    Bracket.step line bs c = .ok bs := by
  unfold Bracket.step
  rw [if_neg (mt isSome_closer?_iff.mp hopener), if_neg (mt isCloser_iff.mp hcloser)]

theorem step_closer (h : IsCloser c) : Bracket.step line bs c = match bs with
    | [] => .error (.unexpected line c)
    | b :: outer =>
      if closer? b.opener = some c then .ok outer
      else .error (.mismatch line c b.opener b.line) := by
  have hopener : ¬ IsOpener c := fun hopener => hopener.not_closer h
  unfold Bracket.step
  cases bs <;>
    exact (if_neg (mt isSome_closer?_iff.mp hopener)).trans (if_pos (isCloser_iff.mpr h))

theorem isCloser_of_step {f : Fault} (h : Bracket.step line bs c = .error f) : IsCloser c := by
  by_cases hcloser : IsCloser c
  · exact hcloser
  · by_cases hopener : IsOpener c
    · rw [step_opener hopener] at h
      cases h
    · rw [step_plain hopener hcloser] at h
      cases h

theorem run_append (line : Nat) (bs : List Bracket) (ps qs : List Piece) :
    Bracket.run line bs (ps ++ qs) = match Bracket.run line bs ps with
      | .error f => .error f
      | .ok (l, bs') => Bracket.run l bs' qs := by
  induction ps generalizing line bs with
  | nil => rfl
  | cons p ps ih =>
      cases p with
      | code c =>
          simp only [List.cons_append, Bracket.run]
          cases Bracket.step line bs c with
          | error f => rfl
          | ok bs' => exact ih _ _
      | comment s => exact ih _ _
      | literal q s => exact ih _ _

theorem run_other (h : p.code? = none) : Bracket.run line bs (p :: ps) =
    Bracket.run (line + p.source.count '\n') bs ps := by
  cases p with
  | code c => cases h
  | comment s => rw [← count_blanked]; rfl
  | literal q s => rw [← count_blanked]; rfl

theorem run_code (h : Bracket.step line bs c = .ok bs') : Bracket.run line bs (.code c :: ps) =
    Bracket.run (line + (Piece.code c).source.count '\n') bs' ps := by
  rw [Bracket.run, h]
  by_cases hc : c = '\n'
  · subst hc
    rfl
  · simp [Piece.source, hc]

theorem run_silent (h : codeOf ps = []) : Bracket.run line bs (ps ++ qs) =
    Bracket.run (line + (text ps).count '\n') bs qs := by
  induction ps generalizing line with
  | nil => rfl
  | cons p ps ih =>
      have hp : p.code? = none := List.filterMap_eq_nil_iff.mp h p List.mem_cons_self
      have hps : codeOf ps = [] := by rwa [codeOf, List.filterMap_cons_none hp] at h
      rw [List.cons_append, run_other hp, ih hps, text_cons, List.count_append, Nat.add_assoc]

theorem exists_of_codeOf_cons {s : List Char} (h : codeOf ps = c :: s) : ∃ before after,
    ps = before ++ .code c :: after ∧ codeOf before = [] ∧ codeOf after = s := by
  obtain ⟨before, p, after, rfl, hbefore, hp, hafter⟩ := List.filterMap_eq_cons_iff.mp h
  refine ⟨before, after, ?_, List.filterMap_eq_nil_iff.mpr hbefore, hafter⟩
  cases p with
  | code d => rw [Option.some.inj hp]
  | comment | literal => cases hp

theorem run_nested {s : List Char} (h : WellNested s) (hcode : codeOf ps = s) (line : Nat)
    (bs : List Bracket) : Bracket.run line bs ps = .ok (line + (text ps).count '\n', bs) := by
  induction h generalizing ps line bs with
  | nil =>
      have hrun : Bracket.run line bs (ps ++ []) = _ := run_silent hcode
      simpa [Bracket.run] using hrun
  | plain hopener hcloser _ ih =>
      obtain ⟨before, after, rfl, hbefore, hafter⟩ := exists_of_codeOf_cons hcode
      rw [run_silent hbefore, run_code (step_plain hopener hcloser), ih hafter]
      simp [text, List.count_append, Nat.add_assoc]
  | wrap hpairs _ _ ihinner ihrest =>
      obtain ⟨before, after, rfl, hbefore, hafter⟩ := exists_of_codeOf_cons hcode
      obtain ⟨inner, after, rfl, hinner, hafter⟩ := List.filterMap_eq_append_iff.mp hafter
      obtain ⟨silent, after, rfl, hsilent, hrest⟩ := exists_of_codeOf_cons hafter
      have hclose : ∀ l l' bs, Bracket.step l (⟨_, l'⟩ :: bs) _ = .ok bs := fun l l' bs =>
        (step_closer ⟨_, hpairs⟩).trans (if_pos (closer?_eq_some_iff.mpr hpairs))
      rw [run_silent hbefore, run_code (step_opener ⟨_, hpairs⟩), run_append, ihinner hinner]
      simp only
      rw [run_silent hsilent, run_code (hclose _ _ _), ihrest hrest]
      simp [text, List.count_append, Nat.add_assoc]

theorem run_of_open (h : Open ps bs) : Bracket.run 1 [] ps = .ok (lineBehind ps, bs) := by
  induction h with
  | none hnested => exact run_nested hnested rfl 1 []
  | @bracket ps qs o bs _ hopener hnested ih =>
      rw [run_append, ih]
      simp only
      rw [run_code (step_opener hopener), run_nested hnested rfl, lineBehind_append]
      simp [text, List.count_append, Nat.add_assoc]

theorem Open.step (h : Open ps bs) (hstep : Bracket.step (lineBehind ps) bs c = .ok bs') :
    Open (ps ++ [.code c]) bs' := by
  by_cases hopener : IsOpener c
  · rw [step_opener hopener] at hstep
    obtain rfl := Except.ok.inj hstep
    exact .bracket h hopener .nil
  · by_cases hcloser : IsCloser c
    · rw [step_closer hcloser] at hstep
      cases h with
      | none => cases hstep
      | @bracket ps qs o bs hopen _ hnested =>
          simp only at hstep
          split at hstep
          · next hpairs =>
              obtain rfl := Except.ok.inj hstep
              rw [List.append_assoc]
              refine hopen.append ?_
              have hwrap := WellNested.wrap (closer?_eq_some_iff.mp hpairs) hnested .nil
              simpa [codeOf, Piece.code?] using hwrap
          · cases hstep
    · rw [step_plain hopener hcloser] at hstep
      obtain rfl := Except.ok.inj hstep
      exact h.append (.plain hopener hcloser .nil)

/-- What checking more pieces comes to behind those with nothing wrong. -/
inductive Comes (ps qs : List Piece) : Except Fault (Nat × List Bracket) → Prop
  | ended {bs : List Bracket} (hopen : Open (ps ++ qs) bs) :
      Comes ps qs (.ok (lineBehind (ps ++ qs), bs))
  | stopped {before after : List Piece} {c : Char} {bs : List Bracket} {f : Fault}
      (hpieces : qs = before ++ .code c :: after) (hopen : Open (ps ++ before) bs)
      (hstep : Bracket.step (lineBehind (ps ++ before)) bs c = .error f) : Comes ps qs (.error f)

theorem Comes.cons {r : Except Fault (Nat × List Bracket)} (h : Comes (ps ++ [p]) qs r) :
    Comes ps (p :: qs) r := by
  cases h with
  | ended hopen =>
      rw [List.append_assoc] at hopen ⊢
      exact .ended hopen
  | stopped hpieces hopen hstep =>
      rw [List.append_assoc] at hopen hstep
      exact .stopped (congrArg (p :: ·) hpieces) hopen hstep

theorem comes_run (h : Open ps bs) (qs : List Piece) :
    Comes ps qs (Bracket.run (lineBehind ps) bs qs) := by
  induction qs generalizing ps bs with
  | nil =>
      have hps : Open (ps ++ []) bs := by rwa [List.append_nil]
      have hended := Comes.ended hps
      rwa [List.append_nil] at hended
  | cons q qs ih =>
      have hline : lineBehind ps + q.source.count '\n' = lineBehind (ps ++ [q]) := by
        rw [lineBehind_append, text_cons, text, List.flatMap_nil, List.append_nil]
      cases hq : q.code? with
      | none =>
          have hnested : WellNested (codeOf [q]) := by simpa [codeOf, hq] using WellNested.nil
          rw [run_other hq, hline]
          exact (ih (h.append hnested)).cons
      | some c =>
          obtain rfl : q = .code c := by
            cases q with
            | code d => rw [Option.some.inj hq]
            | comment | literal => cases hq
          cases hstep : Bracket.step (lineBehind ps) bs c with
          | ok bs' =>
              rw [run_code hstep, hline]
              exact (ih (h.step hstep)).cons
          | error f =>
              rw [Bracket.run, hstep]
              rw [← List.append_nil ps] at h hstep
              have hpieces : Piece.code c :: qs = [] ++ .code c :: qs := rfl
              exact .stopped hpieces h hstep

end Run

variable {style : Style} {s : List Char} {ps : List Piece} {f : Fault}

theorem open_nil_iff : Open ps [] ↔ WellNested (codeOf ps) := by
  refine ⟨fun h => ?_, .none⟩
  cases h with
  | none hnested => exact hnested

theorem open_nil : Open [] [] := .none .nil

theorem wrong_of_step {before after : List Piece} {c : Char} {rest : List Char}
    {bs : List Bracket} (hsource : text (before ++ .code c :: after) ++ rest = s)
    (hstanding : Standing style (before ++ .code c :: after) rest) (hopen : Open before bs)
    (hstep : Bracket.step (lineBehind before) bs c = .error f) : Wrong style s f.message := by
  have hs : s = text before ++ c :: (text after ++ rest) := by
    rw [← hsource, text_append, text_cons, List.append_assoc]
    rfl
  have hfront : Standing style (before ++ [.code c]) (text after ++ rest) := by
    rw [← List.singleton_append, ← List.append_assoc, standing_append] at hstanding
    exact hstanding.1
  have hcloser := isCloser_of_step hstep
  rw [step_closer hcloser] at hstep
  cases bs with
  | nil =>
      obtain rfl := Except.error.inj hstep
      exact .unexpected hs hfront hopen hcloser
  | cons b bs =>
      simp only at hstep
      split at hstep
      · cases hstep
      · next hother =>
          obtain rfl := Except.error.inj hstep
          exact .mismatch hs hfront hopen hcloser (mt closer?_eq_some_iff.mpr hother)

theorem wrong_of_scan (h : scan style s = .error f) : Wrong style s f.message := by
  obtain ⟨rest, hsource, hstanding, hleft⟩ := exists_rest style s
  have hcomes : Comes [] _ (Bracket.run 1 [] _) := comes_run open_nil (pieces style s).pieces
  simp only [scan, check] at h
  generalize (pieces style s).pieces = ps at *
  generalize Bracket.run 1 [] ps = r at *
  cases hcomes with
  | stopped hpieces hopen hstep =>
      obtain rfl := Except.error.inj h
      subst hpieces
      exact wrong_of_step hsource hstanding hopen hstep
  | @ended bs hopen =>
      rw [List.nil_append] at hopen
      cases hwhat : (pieces style s).leftOpen with
      | some what =>
          rw [hwhat] at h hleft
          obtain rfl := Except.error.inj h
          exact .leftOpen hsource.symm hstanding hopen hleft
      | none =>
          rw [hwhat] at h hleft
          obtain rfl : rest = [] := hleft
          cases bs with
          | nil => cases h
          | cons b bs =>
              obtain rfl := Except.error.inj h
              exact .neverClosed ⟨by simpa using hsource, hstanding⟩ hopen

theorem scan_of_step {c : Char} {rest : List Char} {bs : List Bracket}
    (hsource : s = text ps ++ c :: rest) (hstanding : Standing style (ps ++ [.code c]) rest)
    (hopen : Open ps bs)
    (hstep : Bracket.step (lineBehind ps) bs c = .error f) : scan style s = .error f := by
  have hpieces := pieces_text_append hstanding
  have hs : text (ps ++ [.code c]) ++ rest = s := by
    rw [hsource, text_append, List.append_assoc]
    rfl
  rw [hs, List.append_assoc] at hpieces
  have hrun := run_of_open hopen
  simp only [scan, check, hpieces, run_append, hrun]
  simp only [Bracket.run, hstep]

theorem scan_of_wrong {m : String} (h : Wrong style s m) :
    ∃ f, scan style s = .error f ∧ f.message = m := by
  cases h with
  | @leftOpen ps rest bs what hsource hstanding hopen hunclosed =>
      obtain ⟨c, behind, opened, rfl, hpiece, rfl⟩ := pieceAt_of_unclosed hunclosed
      have hpieces := pieces_text_append hstanding
      rw [← hsource, pieces_cons, hpiece, List.append_nil] at hpieces
      refine ⟨.leftOpen (lineBehind ps) opened, ?_, rfl⟩
      simp only [scan, check, hpieces, run_of_open hopen]
  | unexpected hsource hstanding hopen hcloser =>
      exact ⟨_, scan_of_step hsource hstanding hopen (step_closer hcloser), rfl⟩
  | @mismatch ps c _ b bs hsource hstanding hopen hcloser hother =>
      have hstep : Bracket.step (lineBehind ps) (b :: bs) c =
          .error (.mismatch (lineBehind ps) c b.opener b.line) :=
        (step_closer hcloser).trans (if_neg (mt closer?_eq_some_iff.mp hother))
      exact ⟨_, scan_of_step hsource hstanding hopen hstep, rfl⟩
  | @neverClosed ps b bs hreads hopen =>
      refine ⟨.neverClosed b.line b.opener, ?_, rfl⟩
      simp only [scan, check, reads_iff.mp hreads, run_of_open hopen]

theorem scan_eq_ok_iff {out : List Char} : scan style s = .ok out ↔
    ∃ ps, Reads style s ps ∧ WellNested (codeOf ps) ∧ out = ps.flatMap Piece.blanked := by
  constructor
  · intro h
    obtain ⟨hleft, rfl⟩ := scan_ok h
    have hreads : Reads style s (pieces style s).pieces := reads_iff.mpr (by rw [← hleft])
    refine ⟨_, hreads, ?_, rfl⟩
    have hcomes : Comes [] _ (Bracket.run 1 [] _) := comes_run open_nil (pieces style s).pieces
    simp only [scan, check, hleft] at h
    generalize (pieces style s).pieces = ps at *
    generalize Bracket.run 1 [] ps = r at *
    cases hcomes with
    | stopped => cases h
    | @ended bs hopen =>
        cases bs with
        | nil => exact open_nil_iff.mp hopen
        | cons b bs => cases h
  · rintro ⟨ps, hreads, hnested, rfl⟩
    simp only [scan, check, reads_iff.mp hreads, run_of_open (.none hnested)]

/-- A source is accepted exactly if all that begins in it is closed and the brackets in its code are
well nested; otherwise the first thing wrong is told, with its line. -/
theorem scan_tells_first_wrong (style : Style) (s : List Char) :
    ((∃ out, scan style s = .ok out) ↔ ∃ ps, Reads style s ps ∧ WellNested (codeOf ps)) ∧
    ∀ m, (scan style s).mapError Fault.message = .error m ↔ Wrong style s m := by
  constructor
  · constructor
    · rintro ⟨out, h⟩
      obtain ⟨ps, hreads, hnested, -⟩ := scan_eq_ok_iff.mp h
      exact ⟨ps, hreads, hnested⟩
    · rintro ⟨ps, hreads, hnested⟩
      exact ⟨_, scan_eq_ok_iff.mpr ⟨ps, hreads, hnested, rfl⟩⟩
  · intro m
    constructor
    · intro h
      cases hscan : scan style s with
      | ok out =>
          rw [hscan] at h
          cases h
      | error f =>
          rw [hscan] at h
          obtain rfl := Except.error.inj h
          exact wrong_of_scan hscan
    · intro h
      obtain ⟨f, hscan, rfl⟩ := scan_of_wrong h
      rw [hscan]
      rfl

/-- Lines are counted across a text block and an escaped line feed. -/
example : scan .python "'''a\n'''\n(\"b\\\nc\" # )\n]".toList =
    .error (.mismatch 5 ']' '(' 3) :=
  rfl

end FunctionJar.Source
