import FunctionJar.Proofs.Source.Indentation
import FunctionJar.Proofs.Source.Nesting
import FunctionJar.Python

namespace FunctionJar.Source

open Text (isBlank)

/-- A piece of which something is seen once comments and the insides of literals are blanked. -/
inductive Piece.Visible : Piece → Prop
  | code {c : Char} (hblank : isBlank c = false) : Visible (.code c)
  | literal (q : Char) (inner : List Char) : Visible (.literal q inner)

/-- What stands in front of the first thing that is seen on a line. -/
inductive Leads : List Piece → List Char → Prop
  | seen {p : Piece} {ps : List Piece} (hvisible : p.Visible) : Leads (p :: ps) []
  | white {c : Char} {ps : List Piece} {white : List Char} (hblank : isBlank c = true)
      (hfeed : c ≠ '\n') (hrest : Leads ps white) : Leads (.code c :: ps) (c :: white)

/-- Behind `before` begins a line of code, with this in front of what is seen first on it. -/
structure CodeLine (ps before : List Piece) (white : List Char) : Prop where
  start : before = [] ∨ before.getLast? = some (.code '\n')
  leads : ∃ rest, ps = before ++ rest ∧ Leads rest white

/-- A literal from an earlier line with this in front of the quote that ends it. -/
def Piece.Ends (p : Piece) (inner : List Char) : Prop :=
  '\n' ∉ inner ∧ ∃ q front, p = .literal q (front ++ '\n' :: inner)

section Blanked

variable {c q : Char} {w s t : List Char} {front : Option (List Char)} {p : Piece}
  {ps : List Piece}

theorem indents_comment (hline : '\n' ∉ s) (hend : t = [] ∨ t.head? = some '\n') :
    indents front (blank s ++ t) = indents front t := by
  rw [blank_eq_replicate hline]
  cases front with
  | none => rw [(indents_spaces _ t).2]
  | some w =>
      rw [(indents_spaces _ t).1]
      rcases hend with rfl | hfeed
      · rfl
      · obtain ⟨t, rfl⟩ := List.head?_eq_some_iff.mp hfeed
        rw [indents_feed, indents_feed]

theorem indents_lines (front : Option (List Char)) (s t : List Char) :
    indents front (blank s ++ '\n' :: t) = indents (some []) t := by
  induction s generalizing front with
  | nil => exact indents_feed front t
  | cons c s ih =>
      have hcons : blank (c :: s) = (if c = '\n' then '\n' else ' ') :: blank s := rfl
      rw [hcons, List.cons_append]
      split
      · rw [indents_feed, ih]
      · cases front with
        | none => rw [indents_none (by decide), ih]
        | some w => rw [indents_white rfl (by decide), ih]

theorem indent_replicate (n : Nat) : indent (List.replicate n ' ') = List.replicate n ' ' := by
  simp [indent]

theorem indents_inside (hq : isBlank q = false) (hline : '\n' ∉ s) :
    indents none (blank s ++ q :: t) = indents none t := by
  rw [blank_eq_replicate hline, (indents_spaces _ _).2, indents_none (ne_of_not_blank hq rfl)]

theorem indents_ending (hq : isBlank q = false) (w : List Char) (hline : '\n' ∉ s) :
    indents none (blank (w ++ '\n' :: s) ++ q :: t) =
      List.replicate s.length ' ' :: indents none t := by
  have happend : blank (w ++ '\n' :: s) = blank w ++ '\n' :: blank s := by simp [blank]
  rw [happend, List.append_assoc, List.cons_append, indents_lines, blank_eq_replicate hline,
    (indents_spaces _ _).1, List.nil_append, indents_seen hq, indent_replicate]

/-- What a piece is to the lines that it stands on, in front of the rest of a module. -/
inductive Shape (rest : List Char) : Piece → Prop
  | feed : Shape rest (.code '\n')
  | white {c : Char} (hblank : isBlank c = true) (hfeed : c ≠ '\n') : Shape rest (.code c)
  | seen {c : Char} (hblank : isBlank c = false) : Shape rest (.code c)
  | comment {line : List Char} (hline : '\n' ∉ line)
      (hend : rest = [] ∨ rest.head? = some '\n') : Shape rest (.comment line)
  | within {q : Char} {inner : List Char} (hquote : IsQuote q) (hline : '\n' ∉ inner) :
      Shape rest (.literal q inner)
  | across {q : Char} {w s : List Char} (hquote : IsQuote q) (hline : '\n' ∉ s) :
      Shape rest (.literal q (w ++ '\n' :: s))

theorem exists_last_line (h : '\n' ∈ s) : ∃ w t, s = w ++ '\n' :: t ∧ '\n' ∉ t := by
  obtain ⟨t, w, hsplit, ht⟩ := List.eq_append_cons_of_mem (List.mem_reverse.mpr h)
  refine ⟨w.reverse, t.reverse, ?_, by rwa [List.mem_reverse]⟩
  rw [← List.reverse_reverse s, hsplit]
  simp

theorem last_line_unique {w' t' : List Char} (h : w ++ '\n' :: t = w' ++ '\n' :: t')
    (ht : '\n' ∉ t) (ht' : '\n' ∉ t') : t = t' := by
  rcases List.append_eq_append_iff.mp h with ⟨u, -, hu⟩ | ⟨u, -, hu⟩
  · cases u with
    | nil => exact (List.cons.inj hu).2
    | cons d u =>
        rw [(List.cons.inj hu).2] at ht
        simp at ht
  · cases u with
    | nil => exact ((List.cons.inj hu).2).symm
    | cons d u =>
        rw [(List.cons.inj hu).2] at ht'
        simp at ht'

theorem shape_literal (hq : IsQuote q) (inner : List Char) : Shape s (.literal q inner) := by
  by_cases hmem : '\n' ∈ inner
  · obtain ⟨w, last, rfl, hlast⟩ := exists_last_line hmem
    exact .across hq hlast
  · exact .within hq hmem

theorem shape_of_stands (h : Stands .python p s) : Shape s p := by
  cases h with
  | @code c =>
      cases hblank : isBlank c with
      | false => exact .seen hblank
      | true =>
          by_cases hfeed : c = '\n'
          · subst hfeed
            exact .feed
          · exact .white hblank hfeed
  | lineComment hline hend =>
      refine .comment ?_ hend
      rw [List.mem_append, not_or]
      exact ⟨feed_not_mem_lineMark .python, hline⟩
  | blockComment hstyle => cases hstyle
  | literal hquote => exact shape_literal hquote _
  | textBlock hquote => exact shape_literal hquote _

/-- A line behind a line feed in code leads with this. -/
def Behind (ps : List Piece) (white : List Char) : Prop :=
  ∃ before rest, ps = before ++ .code '\n' :: rest ∧ Leads rest white

theorem exists_codeLine_iff {white : List Char} :
    (∃ before, CodeLine ps before white) ↔ Leads ps white ∨ Behind ps white := by
  constructor
  · rintro ⟨before, rfl | hfeed, rest, rfl, hleads⟩
    · exact .inl hleads
    · obtain ⟨before, rfl⟩ := List.getLast?_eq_some_iff.mp hfeed
      exact .inr ⟨before, rest, by simp, hleads⟩
  · rintro (hleads | ⟨before, rest, rfl, hleads⟩)
    · exact ⟨[], .inl rfl, ps, rfl, hleads⟩
    · exact ⟨before ++ [.code '\n'], .inr (by simp), rest, by simp, hleads⟩

theorem Leads.mem (h : Leads ps w) (hc : c ∈ w) : .code c ∈ ps := by
  induction h with
  | seen => cases hc
  | white _ _ _ ih =>
      rcases List.mem_cons.mp hc with rfl | hc
      · exact List.mem_cons_self
      · exact List.mem_cons_of_mem _ (ih hc)

theorem CodeLine.mem {before : List Piece} (h : CodeLine ps before w) (hc : c ∈ w) :
    .code c ∈ ps := by
  obtain ⟨-, rest, rfl, hleads⟩ := h
  exact List.mem_append_right before (hleads.mem hc)

theorem behind_cons {white : List Char} :
    Behind (p :: ps) white ↔ (p = .code '\n' ∧ Leads ps white) ∨ Behind ps white := by
  constructor
  · rintro ⟨before, rest, hsplit, hleads⟩
    cases before with
    | nil =>
        obtain ⟨rfl, rfl⟩ := List.cons.inj hsplit
        exact .inl ⟨rfl, hleads⟩
    | cons d before =>
        obtain ⟨rfl, rfl⟩ := List.cons.inj hsplit
        exact .inr ⟨before, rest, rfl, hleads⟩
  · rintro (⟨rfl, hleads⟩ | ⟨before, rest, rfl, hleads⟩)
    · exact ⟨[], ps, rfl, hleads⟩
    · exact ⟨p :: before, rest, rfl, hleads⟩

theorem not_ends_code : ¬ (Piece.code c).Ends s := by
  rintro ⟨-, q, front, ⟨⟩⟩

theorem not_ends_comment : ¬ (Piece.comment t).Ends s := by
  rintro ⟨-, q, front, ⟨⟩⟩

theorem not_ends_within (h : '\n' ∉ w) : ¬ (Piece.literal q w).Ends s := by
  rintro ⟨-, d, front, hsplit⟩
  obtain ⟨rfl, rfl⟩ := Piece.literal.inj hsplit
  simp at h

theorem ends_across (ht : '\n' ∉ t) : (Piece.literal q (w ++ '\n' :: t)).Ends s ↔ s = t := by
  constructor
  · rintro ⟨hs, d, front, hsplit⟩
    exact last_line_unique (Piece.literal.inj hsplit).2.symm hs ht
  · rintro rfl
    exact ⟨ht, q, w, rfl⟩

theorem not_visible_code (h : isBlank c = true) : ¬ (Piece.code c).Visible := by
  rintro ⟨hseen⟩
  rw [h] at hseen
  cases hseen

theorem not_leads_feed : ¬ Leads (.code '\n' :: ps) w := by
  rintro (hvisible | ⟨-, hfeed, -⟩)
  · exact not_visible_code rfl hvisible
  · exact hfeed rfl

theorem not_leads_comment : ¬ Leads (.comment s :: ps) w := by
  rintro ⟨⟨⟩⟩

theorem leads_white (hblank : isBlank c = true) (hfeed : c ≠ '\n') :
    Leads (.code c :: ps) w ↔ ∃ v, w = c :: v ∧ Leads ps v := by
  constructor
  · rintro (hvisible | ⟨-, -, hrest⟩)
    · exact absurd hvisible (not_visible_code hblank)
    · exact ⟨_, rfl, hrest⟩
  · rintro ⟨v, rfl, hrest⟩
    exact .white hblank hfeed hrest

theorem leads_visible (h : p.Visible) : Leads (p :: ps) w ↔ w = [] := by
  constructor
  · rintro (_ | ⟨hblank, -, -⟩)
    · rfl
    · exact absurd h (not_visible_code hblank)
  · rintro rfl
    exact .seen h

theorem Standing.ends_line (h : Standing .python ps [])
    (hend : text ps = [] ∨ (text ps).head? = some '\n') :
    (∀ white, ¬ Leads ps white) ∧
      (ps.flatMap Piece.blanked = [] ∨ (ps.flatMap Piece.blanked).head? = some '\n') := by
  cases ps with
  | nil => exact ⟨fun white => by rintro ⟨⟩, .inl rfl⟩
  | cons p ps =>
      obtain rfl : p = .code '\n' := by
        rw [text_cons] at hend
        cases h.1 with
        | code => simpa [Piece.source] using hend
        | lineComment => simp [Piece.source, lineMark] at hend
        | blockComment => simp [Piece.source] at hend
        | literal hquote => simp [Piece.source, hquote.ne_feed] at hend
        | textBlock hquote => simp [Piece.source, hquote.ne_feed] at hend
      exact ⟨fun white => not_leads_feed, .inr rfl⟩

/-- A line is indented with this: the line begun with `front`, one behind a line feed in code, or
one on which a literal from an earlier line ends. -/
def Counts (front : Option (List Char)) (ps : List Piece) (i : List Char) : Prop :=
  (∃ w white, front = some w ∧ Leads ps white ∧ i = indent (w ++ white)) ∨
  (∃ white, Behind ps white ∧ i = indent white) ∨
  ∃ p ∈ ps, ∃ t, p.Ends t ∧ i = List.replicate t.length ' '

theorem counts_feed {i : List Char} :
    Counts front (.code '\n' :: ps) i ↔ Counts (some []) ps i := by
  simp [Counts, not_leads_feed, behind_cons, not_ends_code, or_and_right, exists_or, or_assoc]

theorem counts_white {i : List Char} (hblank : isBlank c = true) (hfeed : c ≠ '\n') :
    Counts front (.code c :: ps) i ↔ Counts (front.map (· ++ [c])) ps i := by
  have hleads : ∀ w, (∃ white, Leads (.code c :: ps) white ∧ i = indent (w ++ white)) ↔
      ∃ white, Leads ps white ∧ i = indent (w ++ c :: white) := by
    intro w
    simp only [leads_white hblank hfeed]
    constructor
    · rintro ⟨_, ⟨white, rfl, hwhite⟩, rfl⟩
      exact ⟨white, hwhite, rfl⟩
    · rintro ⟨white, hwhite, rfl⟩
      exact ⟨_, ⟨white, rfl, hwhite⟩, rfl⟩
  cases front <;> simp [Counts, hleads, behind_cons, not_ends_code, hfeed]

theorem counts_visible {i : List Char} (h : p.Visible) : Counts front (p :: ps) i ↔
    (∃ w, front = some w ∧ i = indent w) ∨
      (∃ t, p.Ends t ∧ i = List.replicate t.length ' ') ∨ Counts none ps i := by
  have hfeed : p ≠ .code '\n' := by
    rintro rfl
    exact not_visible_code rfl h
  simp [Counts, leads_visible h, behind_cons, hfeed, or_left_comm]

theorem counts_comment {i : List Char} (h : ∀ white, ¬ Leads ps white) :
    Counts front (.comment s :: ps) i ↔ Counts front ps i := by
  simp [Counts, h, not_leads_comment, behind_cons, not_ends_comment]

theorem counts_start_iff {i : List Char} : Counts (some []) ps i ↔
    (∃ before white, CodeLine ps before white ∧ i = indent white) ∨
      ∃ p ∈ ps, ∃ t, p.Ends t ∧ i = List.replicate t.length ' ' := by
  have hline : (∃ before white, CodeLine ps before white ∧ i = indent white) ↔
      ∃ white, (Leads ps white ∨ Behind ps white) ∧ i = indent white := by
    rw [exists_comm]
    simp only [exists_and_right, exists_codeLine_iff]
  rw [hline]
  simp [Counts, or_and_right, exists_or, or_assoc]

theorem mem_indents (h : Standing .python ps []) (front : Option (List Char)) (i : List Char) :
    i ∈ indents front (ps.flatMap Piece.blanked) ↔ Counts front ps i := by
  induction ps generalizing front with
  | nil =>
      refine iff_of_false List.not_mem_nil ?_
      rintro (⟨w, white, -, hleads, -⟩ | ⟨white, ⟨before, rest, hsplit, -⟩, -⟩ | ⟨p, hmem, -⟩)
      · cases hleads
      · simp at hsplit
      · cases hmem
  | cons p ps ih =>
      have hshape := shape_of_stands h.1
      rw [List.append_nil] at hshape
      rw [List.flatMap_cons]
      cases hshape with
      | feed => rw [Piece.blanked, List.singleton_append, indents_feed, ih h.2, counts_feed]
      | white hblank hfeed =>
          rw [Piece.blanked, List.singleton_append, indents_white hblank hfeed, ih h.2,
            counts_white hblank hfeed]
      | seen hblank =>
          rw [Piece.blanked, List.singleton_append, mem_indents_seen hblank, ih h.2,
            counts_visible (.code hblank)]
          simp [not_ends_code]
      | comment hline hend =>
          obtain ⟨hleads, hblanked⟩ := h.2.ends_line hend
          rw [Piece.blanked, indents_comment hline hblanked, ih h.2, counts_comment hleads]
      | within hquote hline =>
          rw [Piece.blanked, List.append_assoc, List.cons_append, List.singleton_append,
            mem_indents_seen hquote.not_blank, indents_inside hquote.not_blank hline, ih h.2,
            counts_visible (.literal _ _)]
          simp [not_ends_within hline]
      | @across _ w t hquote hline =>
          rw [Piece.blanked, List.append_assoc, List.cons_append, List.singleton_append,
            mem_indents_seen hquote.not_blank, indents_ending hquote.not_blank w hline,
            List.mem_cons, ih h.2, counts_visible (.literal _ _)]
          simp [ends_across hline]

theorem head_indents (h : Standing .python ps []) {i : List Char}
    (hi : (indents (some w) (ps.flatMap Piece.blanked)).head? = some i) :
    (∃ white, Leads ps white ∧ i = indent (w ++ white)) ∨
    ∃ before rest white, ps = before ++ .code '\n' :: rest ∧ (∀ p ∈ before, ¬ p.Visible) ∧
      Leads rest white ∧ i = indent white := by
  induction ps generalizing w with
  | nil => cases hi
  | cons p ps ih =>
      have hshape := shape_of_stands h.1
      rw [List.append_nil] at hshape
      rw [List.flatMap_cons] at hi
      have hlater : ¬ p.Visible →
          (∃ before rest white, ps = before ++ .code '\n' :: rest ∧ (∀ p ∈ before, ¬ p.Visible) ∧
            Leads rest white ∧ i = indent white) →
          ∃ before rest white, p :: ps = before ++ .code '\n' :: rest ∧
            (∀ p ∈ before, ¬ p.Visible) ∧ Leads rest white ∧ i = indent white := by
        rintro hp ⟨before, rest, white, rfl, hbefore, hleads, hi⟩
        refine ⟨p :: before, rest, white, rfl, ?_, hleads, hi⟩
        exact List.forall_mem_cons.mpr ⟨hp, hbefore⟩
      have hcomment : ∀ s, ¬ (Piece.comment s).Visible := by rintro s ⟨⟩
      cases hshape with
      | feed =>
          rw [Piece.blanked, List.singleton_append, indents_feed] at hi
          rcases ih h.2 hi with ⟨white, hleads, rfl⟩ | hrest
          · exact .inr ⟨[], ps, white, rfl, by simp, hleads, rfl⟩
          · exact .inr (hlater (not_visible_code rfl) hrest)
      | white hblank hfeed =>
          rw [Piece.blanked, List.singleton_append, indents_white hblank hfeed] at hi
          rcases ih h.2 hi with ⟨white, hleads, rfl⟩ | hrest
          · exact .inl ⟨_, .white hblank hfeed hleads, by simp⟩
          · exact .inr (hlater (not_visible_code hblank) hrest)
      | seen hblank =>
          rw [Piece.blanked, List.singleton_append, indents_seen hblank] at hi
          obtain rfl := Option.some.inj hi
          exact .inl ⟨[], .seen (.code hblank), by simp⟩
      | comment hline hend =>
          rw [Piece.blanked, indents_comment hline (h.2.ends_line hend).2] at hi
          rcases ih h.2 hi with ⟨white, hleads, -⟩ | hrest
          · exact absurd hleads ((h.2.ends_line hend).1 white)
          · exact .inr (hlater (hcomment _) hrest)
      | within hquote | across hquote =>
          rw [Piece.blanked, List.append_assoc, List.cons_append,
            indents_seen hquote.not_blank] at hi
          obtain rfl := Option.some.inj hi
          exact .inl ⟨[], .seen (.literal _ _), by simp⟩

end Blanked

end FunctionJar.Source

namespace FunctionJar.Python

open Source

variable {source name : String} {ps : List Piece} {out : List Char}

def StartsLeft (ps : List Piece) : Prop :=
  ∀ before white, CodeLine ps before white → (∀ p ∈ before, ¬ p.Visible) → indent white = []

theorem validate_of_scan (hscan : scan .python source.toList = .ok out) :
    validate source name = (indentFault? out).elim
      (if binds name.toList out then .ok () else .error (.unbound name))
      (fun f => .error (.indentation f)) := by
  simp only [validate, hscan, mapError_ok, ok_bind]
  cases indentFault? out with
  | some f => rfl
  | none => cases binds name.toList out <;> rfl

theorem validate_mixed_iff (hscan : scan .python source.toList = .ok out) (n : Nat) :
    validate source name = .error (.indentation (.mixed n)) ↔
      indentFault? out = some (.mixed n) := by
  rw [validate_of_scan hscan]
  cases indentFault? out with
  | none => cases hbinds : binds name.toList out <;> simp
  | some f => simp

theorem startsLeft_of_visible {p : Piece} (h : p.Visible) : StartsLeft (p :: ps) := by
  rintro (_ | ⟨d, before⟩) white ⟨-, rest, hsplit, hleads⟩ hbefore
  · rw [List.nil_append] at hsplit
    rw [← hsplit, leads_visible h] at hleads
    rw [hleads]
    rfl
  · obtain ⟨rfl, -⟩ := List.cons.inj hsplit
    exact absurd h (hbefore p List.mem_cons_self)

theorem StartsLeft.head_indents (h : StartsLeft ps) (hstanding : Standing .python ps [])
    {i : List Char} (hi : (indents (some []) (ps.flatMap Piece.blanked)).head? = some i) : i = [] := by
  rcases Source.head_indents hstanding hi with
    ⟨white, hleads, rfl⟩ | ⟨before, rest, white, rfl, hbefore, hleads, rfl⟩
  · exact h [] white ⟨.inl rfl, ps, rfl, hleads⟩ (by simp)
  · refine h (before ++ [.code '\n']) white ⟨.inr (by simp), rest, by simp, hleads⟩ ?_
    have hfeed : ¬ (Piece.code '\n').Visible := not_visible_code rfl
    exact List.forall_mem_append.mpr ⟨hbefore, List.forall_mem_singleton.mpr hfeed⟩

theorem exists_indented_iff (h : Standing .python ps []) (c : Char) :
    (∃ i ∈ indents (some []) (ps.flatMap Piece.blanked), c ∈ i) ↔
      (∃ before white, CodeLine ps before white ∧ c ∈ indent white) ∨
        ∃ p ∈ ps, ∃ s, p.Ends s ∧ s ≠ [] ∧ c = ' ' := by
  simp only [mem_indents h, counts_start_iff]
  constructor
  · rintro ⟨i, ⟨before, white, hline, rfl⟩ | ⟨p, hp, s, hends, rfl⟩, hc⟩
    · exact .inl ⟨before, white, hline, hc⟩
    · exact .inr ⟨p, hp, s, hends, by simpa using hc⟩
  · rintro (⟨before, white, hline, hc⟩ | ⟨p, hp, s, hends, hc⟩)
    · exact ⟨_, .inl ⟨before, white, hline, rfl⟩, hc⟩
    · exact ⟨_, .inr ⟨p, hp, s, hends, rfl⟩, by simpa using hc⟩

/-- Tabs are mixed with spaces if lines of code are indented with both, or some with tabs while a
literal has anything in front of its last quote on the line where it ends. -/
theorem mixes_iff (hreads : Reads .python source.toList ps)
    (hscan : scan .python source.toList = .ok out) (hfirst : StartsLeft ps) :
    (∃ n, validate source name = .error (.indentation (.mixed n))) ↔
      (∃ before white, CodeLine ps before white ∧ '\t' ∈ indent white) ∧
      ((∃ before white, CodeLine ps before white ∧ ' ' ∈ indent white) ∨
        ∃ p ∈ ps, ∃ s, p.Ends s ∧ s ≠ []) := by
  obtain ⟨ps', hreads', -, rfl⟩ := scan_eq_ok_iff.mp hscan
  obtain rfl : ps' = ps := by
    have hpieces := (reads_iff.mp hreads').symm.trans (reads_iff.mp hreads)
    exact (Pieces.mk.inj hpieces).1
  simp only [validate_mixed_iff hscan]
  rw [mixed_iff fun i => hfirst.head_indents hreads.standing, exists_indented_iff hreads.standing,
    exists_indented_iff hreads.standing]
  simp

def mixture : String := "def f(s):\n  # g\n\tg('''a\n b''')\n  return s\n"

def mixtureFront : List Piece :=
  "def f(s):\n  ".toList.map .code ++ [.comment "# g".toList, .code '\n']

def mixtureMiddle : List Piece :=
  "\tg(".toList.map .code ++ .literal '\'' "''a\n b''".toList :: ")\n".toList.map .code

def mixturePieces : List Piece :=
  mixtureFront ++ mixtureMiddle ++ "  return s\n".toList.map .code

theorem mixes_iff_mixture : Reads .python mixture.toList mixturePieces ∧
    scan .python mixture.toList = .ok "def f(s):\n     \n\tg('   \n    ')\n  return s\n".toList ∧
    StartsLeft mixturePieces ∧ ∃ n, validate mixture "f" = .error (.indentation (.mixed n)) := by
  have hreads : Reads .python mixture.toList mixturePieces := reads_iff.mpr (by decide +kernel)
  have hscan : scan .python mixture.toList =
      .ok "def f(s):\n     \n\tg('   \n    ')\n  return s\n".toList :=
    ok_of_toOption (by decide +kernel)
  have hfirst : StartsLeft mixturePieces := startsLeft_of_visible (.code rfl)
  have htab : CodeLine mixturePieces mixtureFront ['\t'] :=
    ⟨.inr (by decide +kernel), mixtureMiddle ++ "  return s\n".toList.map .code,
      by decide +kernel, .white rfl (by decide) (.seen (.code rfl))⟩
  have hspaces : CodeLine mixturePieces (mixtureFront ++ mixtureMiddle) [' ', ' '] :=
    ⟨.inr (by decide +kernel), "  return s\n".toList.map .code, rfl,
      .white rfl (by decide) (.white rfl (by decide) (.seen (.code rfl)))⟩
  exact ⟨hreads, hscan, hfirst, (mixes_iff hreads hscan hfirst).mpr
    ⟨⟨_, _, htab, by decide⟩, .inl ⟨_, _, hspaces, by decide⟩⟩⟩

def tabbed : String := "def\tf(s):\n\t'''doc\n\t'''\n\treturn\ts\n"

def tabbedPieces : List Piece :=
  "def\tf(s):\n\t".toList.map .code ++
    .literal '\'' "''doc\n\t''".toList :: "\n\treturn\ts\n".toList.map .code

theorem tabbed_mixes : Reads .python tabbed.toList tabbedPieces ∧ StartsLeft tabbedPieces ∧
    (∃ out, scan .python tabbed.toList = .ok out) ∧
    (¬ ∃ before white, CodeLine tabbedPieces before white ∧ ' ' ∈ white) ∧
    validate tabbed "f" = .error (.indentation (.mixed 3)) := by
  have hscan : scan .python tabbed.toList =
      .ok "def\tf(s):\n\t'     \n   '\n\treturn\ts\n".toList :=
    ok_of_toOption (by decide +kernel)
  have hmixed : indentFault? "def\tf(s):\n\t'     \n   '\n\treturn\ts\n".toList =
      some (.mixed 3) := by decide +kernel
  refine ⟨reads_iff.mpr (by decide +kernel), startsLeft_of_visible (.code rfl), ⟨_, hscan⟩, ?_, ?_⟩
  · rintro ⟨before, white, hline, hspace⟩
    have hcode : Piece.code ' ' ∉ tabbedPieces := by decide +kernel
    exact hcode (hline.mem hspace)
  · rw [validate_of_scan hscan, hmixed]
    rfl

end FunctionJar.Python
