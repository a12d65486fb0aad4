import FunctionJar.Proofs.Python.Indentation
import FunctionJar.Proofs.Source.Declaration
import FunctionJar.Proofs.Source.Seam

namespace FunctionJar

namespace Text

theorem not_blank_of_word {c : Char} (h : isWord c = true) : isBlank c = false :=
  not_blank_of_kind (by decide +kernel) h

end Text

namespace Source

open Text (isBlank isWord isBoundary)

abbrev written (word : List Char) : List Piece := word.map .code

abbrev Silent (p : Piece) : Prop := ¬ p.Visible

def Piece.Space (p : Piece) : Prop := ∃ c, p = .code c ∧ isBlank c = true ∧ c ≠ '\n'

/-- The keyword and the whole name, with nothing but such pieces between them. -/
def Defines (between : Piece → Prop) (keyword : String) (name : List Char)
    (ps : List Piece) : Prop :=
  ∃ gap rest, ps = written keyword.toList ++ (gap ++ (written name ++ rest)) ∧ gap ≠ [] ∧
    (∀ p ∈ gap, between p) ∧ ∀ c ∈ (text rest).head?, isWord c = false

/-- A function, a coroutine or a class of that name, or one equals sign behind the name. -/
inductive Binding (between : Piece → Prop) (name : List Char) : List Piece → Prop
  | function {ps : List Piece} (hdefines : Defines between "def" name ps) : Binding between name ps
  | coroutine {gap ps : List Piece} (hgap : gap ≠ []) (hbetween : ∀ p ∈ gap, between p)
      (hdefines : Defines between "def" name ps) :
      Binding between name (written "async".toList ++ (gap ++ ps))
  | type {ps : List Piece} (hdefines : Defines between "class" name ps) : Binding between name ps
  | assignment {gap rest : List Piece} (hbetween : ∀ p ∈ gap, between p)
      (hsingle : ∃ c ∈ (text rest).head?, c ≠ '=') :
      Binding between name (written name ++ (gap ++ .code '=' :: rest))

structure LineStart (before : List Piece) (bs : List Bracket) : Prop where
  start : before = [] ∨ before.getLast? = some (.code '\n')
  within : Open before bs

/-- The line behind `before`, within these brackets, binds the name. -/
structure BindingLine (between : Piece → Prop) (name : List Char) (ps before : List Piece)
    (bs : List Bracket) : Prop extends LineStart before bs where
  binding : ∃ rest, ps = before ++ rest ∧ Binding between name rest

section Shown

variable {style : Style} {p : Piece} {ps : List Piece} {c : Char} {s word front rest : List Char}

theorem Stands.eq_code (h : Stands style p s) (hc : c ∈ p.blanked) (hblank : isBlank c = false)
    (hquote : ¬ IsQuote c) : p = .code c := by
  cases h with
  | code => exact congrArg _ (List.mem_singleton.mp hc).symm
  | lineComment | blockComment => simp [isBlank_of_mem_blank hc] at hblank
  | literal hq | textBlock hq =>
      simp only [Piece.blanked, List.mem_append, List.mem_cons, List.not_mem_nil, or_false] at hc
      rcases hc with (rfl | hc) | rfl
      · exact absurd hq hquote
      · simp [isBlank_of_mem_blank hc] at hblank
      · exact absurd hq hquote

theorem Stands.blanked_ne_nil (h : Stands style p s) : p.blanked ≠ [] := by
  cases h with
  | code | literal | textBlock => simp [Piece.blanked]
  | lineComment => cases style <;> simp [Piece.blanked, blank, lineMark]
  | blockComment => simp [Piece.blanked, blank]

theorem Standing.blanked_eq_nil_iff (h : Standing style ps s) :
    ps.flatMap Piece.blanked = [] ↔ ps = [] := by
  cases ps with
  | nil => simp
  | cons p ps => simp [h.1.blanked_ne_nil]

theorem Standing.stands_of_mem (h : Standing style ps s) (hp : p ∈ ps) : ∃ t, Stands style p t := by
  obtain ⟨before, after, rfl⟩ := List.append_of_mem hp
  exact ⟨_, (standing_append.mp h).2.1⟩

theorem exists_code (h : Standing style ps s)
    (hsplit : ps.flatMap Piece.blanked = front ++ c :: rest) (hblank : isBlank c = false)
    (hquote : ¬ IsQuote c) : ∃ before after, ps = before ++ .code c :: after ∧
      front = before.flatMap Piece.blanked ∧ rest = after.flatMap Piece.blanked := by
  induction ps generalizing front with
  | nil => simp at hsplit
  | cons p ps ih =>
      have hlater : ∀ u, front = p.blanked ++ u → ps.flatMap Piece.blanked = u ++ c :: rest →
          ∃ before after, p :: ps = before ++ .code c :: after ∧
            front = before.flatMap Piece.blanked ∧ rest = after.flatMap Piece.blanked := by
        rintro u rfl hu
        obtain ⟨before, after, rfl, rfl, rfl⟩ := ih h.2 hu
        exact ⟨p :: before, after, rfl, rfl, rfl⟩
      rw [List.flatMap_cons] at hsplit
      rcases List.append_eq_append_iff.mp hsplit with ⟨u, hfront, hu⟩ | ⟨_ | ⟨d, u⟩, hp, hu⟩
      · exact hlater u hfront hu
      · exact hlater [] (by simpa using hp.symm) hu.symm
      · obtain ⟨rfl, rfl⟩ := List.cons.inj hu
        obtain rfl := h.1.eq_code (by simp [hp]) hblank hquote
        obtain ⟨rfl, hsingle⟩ | ⟨-, hsingle⟩ := List.append_eq_singleton_iff.mp hp.symm
        · obtain ⟨-, rfl⟩ := List.cons.inj hsingle
          exact ⟨[], ps, rfl, rfl, rfl⟩
        · cases hsingle

theorem not_quote_of_word (h : isWord c = true) : ¬ IsQuote c := by
  rintro (rfl | rfl) <;> cases h

theorem exists_word (h : Standing style ps s)
    (hsplit : ps.flatMap Piece.blanked = word ++ rest) (hword : ∀ c ∈ word, isWord c = true) :
    ∃ after, ps = written word ++ after ∧ rest = after.flatMap Piece.blanked := by
  induction word generalizing ps with
  | nil => exact ⟨ps, rfl, hsplit.symm⟩
  | cons c word ih =>
      obtain ⟨hc, hword⟩ := List.forall_mem_cons.mp hword
      rw [List.cons_append, ← List.nil_append (c :: _)] at hsplit
      obtain ⟨before, after, rfl, hfront, hafter⟩ :=
        exists_code h hsplit (Text.not_blank_of_word hc) (not_quote_of_word hc)
      obtain ⟨hbefore, hstanding⟩ := standing_append.mp h
      obtain rfl := hbefore.blanked_eq_nil_iff.mp hfront.symm
      obtain ⟨after, rfl, rfl⟩ := ih hstanding.2 hafter.symm hword
      exact ⟨after, rfl, rfl⟩

theorem exists_gap {gap : List Char} (h : Standing style ps s)
    (hsplit : ps.flatMap Piece.blanked = gap ++ c :: rest) (hgap : ∀ d ∈ gap, isBlank d = true)
    (hblank : isBlank c = false) (hquote : ¬ IsQuote c) : ∃ silent after,
      ps = silent ++ .code c :: after ∧ (∀ p ∈ silent, Silent p) ∧
      gap = silent.flatMap Piece.blanked ∧ rest = after.flatMap Piece.blanked := by
  obtain ⟨silent, after, rfl, rfl, rfl⟩ := exists_code h hsplit hblank hquote
  refine ⟨silent, after, rfl, fun p hp hvisible => ?_, rfl, rfl⟩
  have hshown : ∀ d ∈ p.blanked, isBlank d = true := fun d hd =>
    hgap d (List.mem_flatMap.mpr ⟨p, hp, hd⟩)
  cases hvisible with
  | code hseen => simp [hshown _ (List.mem_singleton_self _)] at hseen
  | literal q inner =>
      obtain ⟨t, hstands⟩ := h.stands_of_mem (List.mem_append_left _ hp)
      have hq : IsQuote q := by cases hstands <;> assumption
      have hseen := hq.not_blank
      simp [hshown q List.mem_cons_self] at hseen

theorem isBlank_of_silent (h : ∀ p ∈ ps, Silent p) (hc : c ∈ ps.flatMap Piece.blanked) :
    isBlank c = true := by
  obtain ⟨p, hp, hc⟩ := List.mem_flatMap.mp hc
  cases p with
  | code d =>
      obtain rfl := List.mem_singleton.mp hc
      exact Bool.not_eq_false _ |>.mp fun hseen => h _ hp (.code hseen)
  | comment t => exact isBlank_of_mem_blank hc
  | literal q inner => exact absurd (.literal q inner) (h _ hp)

theorem head_blanked (h : Standing .python ps s) : ps = [] ∨ ∃ c d, (text ps).head? = some c ∧
    (ps.flatMap Piece.blanked).head? = some d ∧ (c = d ∨ (c = '#' ∧ d = ' ')) := by
  cases ps with
  | nil => exact .inl rfl
  | cons p ps =>
      refine .inr ?_
      cases h.1 with
      | code => exact ⟨_, _, rfl, rfl, .inl rfl⟩
      | lineComment => exact ⟨_, _, rfl, rfl, .inr ⟨rfl, rfl⟩⟩
      | blockComment hstyle => cases hstyle
      | literal | textBlock => exact ⟨_, _, rfl, rfl, .inl rfl⟩

theorem boundary_iff {name : List Char} (hname : name ≠ []) (hword : ∀ c ∈ name, isWord c = true)
    (h : Standing .python ps s) :
    isBoundary name.getLast? (ps.flatMap Piece.blanked).head? = true ↔
      ∀ c ∈ (text ps).head?, isWord c = false := by
  have hlast := hword _ (List.getLast_mem hname)
  rw [List.getLast?_eq_some_getLast hname, Text.isBoundary_comm, Text.isBoundary_some_iff hlast]
  rcases head_blanked h with rfl | ⟨c, d, htext, hblanked, rfl | ⟨rfl, rfl⟩⟩
  · rfl
  · rw [htext, hblanked]
  · rw [htext, hblanked]
    exact iff_of_true (by rintro _ ⟨⟩; decide) (by rintro _ ⟨⟩; decide)

theorem single_iff (h : Standing .python ps s) :
    (∃ c rest, ps.flatMap Piece.blanked = c :: rest ∧ c ≠ '=') ↔
      ∃ c ∈ (text ps).head?, c ≠ '=' := by
  have hhead : (∃ c rest, ps.flatMap Piece.blanked = c :: rest ∧ c ≠ '=') ↔
      ∃ c ∈ (ps.flatMap Piece.blanked).head?, c ≠ '=' := by
    simp [List.head?_eq_some_iff]
  rw [hhead]
  rcases head_blanked h with rfl | ⟨c, d, htext, hblanked, rfl | ⟨rfl, rfl⟩⟩
  · rfl
  · rw [htext, hblanked]
  · rw [htext, hblanked]
    exact iff_of_true ⟨' ', rfl, by decide⟩ ⟨'#', rfl, by decide⟩

end Shown

section Between

variable {between other : Piece → Prop} {name : List Char} {ps : List Piece}

theorem Binding.exists_head (h : Binding between name ps) (hname : name ≠ []) :
    ∃ c rest, ps = .code c :: rest ∧ (c ∈ ['d', 'a', 'c'] ∨ name.head? = some c) := by
  cases h with
  | function hdefines =>
      obtain ⟨gap, rest, rfl, -⟩ := hdefines
      exact ⟨'d', _, rfl, .inl (by decide)⟩
  | coroutine => exact ⟨'a', _, rfl, .inl (by decide)⟩
  | type hdefines =>
      obtain ⟨gap, rest, rfl, -⟩ := hdefines
      exact ⟨'c', _, rfl, .inl (by decide)⟩
  | assignment =>
      obtain ⟨c, cs, rfl⟩ := List.exists_cons_of_ne_nil hname
      exact ⟨c, _, rfl, .inr rfl⟩

theorem Binding.mono (h : Binding between name ps) (hother : ∀ p, between p → other p) :
    Binding other name ps := by
  have hdefines : ∀ {keyword : String} {qs : List Piece}, Defines between keyword name qs →
      Defines other keyword name qs := by
    rintro keyword qs ⟨gap, rest, rfl, hne, hgap, hend⟩
    exact ⟨gap, rest, rfl, hne, fun p hp => hother p (hgap p hp), hend⟩
  cases h with
  | function h => exact .function (hdefines h)
  | coroutine hne hgap h => exact .coroutine hne (fun p hp => hother p (hgap p hp)) (hdefines h)
  | type h => exact .type (hdefines h)
  | assignment hgap hsingle => exact .assignment (fun p hp => hother p (hgap p hp)) hsingle

end Between

section Lines

variable {name s : List Char} {ps : List Piece}

theorem gap_iff {gap : List Piece} (h : Standing .python gap s) :
    Gap (gap.flatMap Piece.blanked) ↔
      gap ≠ [] ∧ ∀ c ∈ gap.flatMap Piece.blanked, isBlank c = true :=
  ⟨fun hgap => ⟨fun hnil => hgap.nonempty (by rw [hnil]; rfl), hgap.blank⟩,
    fun ⟨hne, hblank⟩ => ⟨mt h.blanked_eq_nil_iff.mp hne, hblank⟩⟩

theorem declared_iff_defines {keyword : String} (h : Standing .python ps s) (hname : name ≠ [])
    (hkeyword : ∀ c ∈ keyword.toList, isWord c = true) (hword : ∀ c ∈ name, isWord c = true) :
    Declared keyword name (ps.flatMap Piece.blanked) ↔ Defines Silent keyword name ps := by
  constructor
  · rintro ⟨gap, rest, hsplit, hgap, hend⟩
    obtain ⟨after, rfl, hafter⟩ := exists_word h hsplit hkeyword
    obtain ⟨-, hstanding⟩ := standing_append.mp h
    obtain ⟨c, cs, rfl⟩ := List.exists_cons_of_ne_nil hname
    obtain ⟨hc, hcs⟩ := List.forall_mem_cons.mp hword
    rw [List.append_assoc, List.cons_append] at hafter
    obtain ⟨silent, after, rfl, hsilent, rfl, hrest⟩ := exists_gap hstanding hafter.symm hgap.blank
      (Text.not_blank_of_word hc) (not_quote_of_word hc)
    obtain ⟨hgapped, -, hstanding⟩ := standing_append.mp hstanding
    obtain ⟨after, rfl, rfl⟩ := exists_word hstanding hrest.symm hcs
    obtain ⟨-, hstanding⟩ := standing_append.mp hstanding
    exact ⟨silent, after, rfl, ((gap_iff hgapped).mp hgap).1, hsilent,
      (boundary_iff hname hword hstanding).mp hend⟩
  · rintro ⟨gap, rest, rfl, hne, hsilent, hend⟩
    obtain ⟨-, hstanding⟩ := standing_append.mp h
    obtain ⟨hgap, hstanding⟩ := standing_append.mp hstanding
    obtain ⟨-, hstanding⟩ := standing_append.mp hstanding
    refine ⟨gap.flatMap Piece.blanked, rest.flatMap Piece.blanked, ?_, ?_,
      (boundary_iff hname hword hstanding).mpr hend⟩
    · simp only [List.flatMap_append, blanked_code, List.append_assoc]
    · exact (gap_iff hgap).mpr ⟨hne, fun c hc => isBlank_of_silent hsilent hc⟩

theorem assigned_iff (h : Standing .python ps s) (hword : ∀ c ∈ name, isWord c = true) :
    Assigned name (ps.flatMap Piece.blanked) ↔ ∃ gap rest,
      ps = written name ++ (gap ++ .code '=' :: rest) ∧ (∀ p ∈ gap, Silent p) ∧
      ∃ c ∈ (text rest).head?, c ≠ '=' := by
  constructor
  · rintro ⟨gap, c, rest, hsplit, hgap, hc⟩
    obtain ⟨after, rfl, hafter⟩ := exists_word h hsplit hword
    obtain ⟨-, hstanding⟩ := standing_append.mp h
    have hquote : ¬ IsQuote '=' := by decide
    obtain ⟨silent, after, rfl, hsilent, rfl, hrest⟩ :=
      exists_gap hstanding hafter.symm hgap rfl hquote
    obtain ⟨-, -, hstanding⟩ := standing_append.mp hstanding
    exact ⟨silent, after, rfl, hsilent, (single_iff hstanding).mp ⟨c, rest, hrest.symm, hc⟩⟩
  · rintro ⟨gap, rest, rfl, hsilent, hsingle⟩
    obtain ⟨-, hstanding⟩ := standing_append.mp h
    obtain ⟨-, -, hstanding⟩ := standing_append.mp hstanding
    obtain ⟨c, t, hrest, hc⟩ := (single_iff hstanding).mpr hsingle
    refine ⟨gap.flatMap Piece.blanked, c, t, ?_, fun d hd => isBlank_of_silent hsilent hd, hc⟩
    rw [List.flatMap_append, List.flatMap_append, blanked_code, List.flatMap_cons, hrest]
    rfl

theorem binding_iff (h : Standing .python ps s) (hname : name ≠ [])
    (hword : ∀ c ∈ name, isWord c = true) :
    Bound name (ps.flatMap Piece.blanked) ↔ Binding Silent name ps := by
  have hdefines : ∀ {keyword : String} {qs : List Piece} {t : List Char}, Standing .python qs t →
      (∀ c ∈ keyword.toList, isWord c = true) →
      (Declared keyword name (qs.flatMap Piece.blanked) ↔ Defines Silent keyword name qs) :=
    fun hqs hkeyword => declared_iff_defines hqs hname hkeyword hword
  have hdef : ∀ c ∈ "def".toList, isWord c = true := List.all_eq_true.mp rfl
  have hasync : ∀ c ∈ "async".toList, isWord c = true := List.all_eq_true.mp rfl
  have hclass : ∀ c ∈ "class".toList, isWord c = true := List.all_eq_true.mp rfl
  rw [Bound, hdefines h hdef, hdefines h hclass, assigned_iff h hword]
  symm
  constructor
  · intro hbinding
    cases hbinding with
    | function hfunction => exact .inl (.inl hfunction)
    | @coroutine gap qs hgap hsilent hfunction =>
        obtain ⟨-, hstanding⟩ := standing_append.mp h
        obtain ⟨hfront, hstanding⟩ := standing_append.mp hstanding
        refine .inl (.inr (.inl ⟨gap.flatMap Piece.blanked, _, ?_, ?_,
          (hdefines hstanding hdef).mpr hfunction⟩))
        · rw [List.flatMap_append, List.flatMap_append, blanked_code]
        · exact (gap_iff hfront).mpr ⟨hgap, fun c hc => isBlank_of_silent hsilent hc⟩
    | type htype => exact .inl (.inr (.inr htype))
    | assignment hsilent hsingle => exact .inr ⟨_, _, rfl, hsilent, hsingle⟩
  · rintro ((hfunction | ⟨wide, rest, hsplit, hwide, hfunction⟩ | htype) |
      ⟨gap, rest, rfl, hsilent, hsingle⟩)
    · exact .function hfunction
    · obtain ⟨after, rfl, hafter⟩ := exists_word h hsplit hasync
      obtain ⟨-, hstanding⟩ := standing_append.mp h
      obtain ⟨gap, t, rfl, -⟩ := id hfunction
      obtain ⟨silent, after, rfl, hsilent, rfl, hrest⟩ := exists_gap (c := 'd') hstanding
        hafter.symm hwide.blank rfl (not_quote_of_word rfl)
      obtain ⟨hfront, hstanding⟩ := standing_append.mp hstanding
      have hbehind : (Piece.code 'd' :: after).flatMap Piece.blanked =
          "def".toList ++ (gap ++ name ++ t) := by
        rw [List.flatMap_cons, ← hrest]
        rfl
      rw [← hbehind, hdefines hstanding hdef] at hfunction
      exact .coroutine ((gap_iff hfront).mp hwide).1 hsilent hfunction
    · exact .type htype
    · exact .assignment hsilent hsingle

theorem last_blanked_iff (h : Standing .python ps s) :
    (ps.flatMap Piece.blanked).getLast? = some '\n' ↔ ps.getLast? = some (.code '\n') := by
  rcases ps.eq_nil_or_concat with rfl | ⟨front, p, rfl⟩
  · simp
  · rw [List.concat_eq_append] at *
    obtain ⟨-, hp, -⟩ := standing_append.mp h
    have hlast : ((front ++ [p]).flatMap Piece.blanked).getLast? = p.blanked.getLast? := by
      rw [List.flatMap_append, List.flatMap_singleton,
        List.getLast?_append_of_ne_nil _ hp.blanked_ne_nil]
    rw [hlast, List.getLast?_concat, Option.some.injEq]
    cases shape_of_stands hp with
    | feed => simp [Piece.blanked]
    | white _ hfeed => simp [Piece.blanked, hfeed]
    | seen hblank => simp [Piece.blanked]
    | comment hline =>
        rw [Piece.blanked, blank_eq_replicate hline, List.getLast?_replicate]
        split <;> simp
    | within hquote | across hquote =>
        simp [Piece.blanked, List.getLast?_cons, hquote.ne_feed]

theorem binds_blanked_iff (h : Standing .python ps []) (hname : name ≠ [])
    (hword : ∀ c ∈ name, isWord c = true) : binds name (ps.flatMap Piece.blanked) = true ↔
      ∃ before rest, ps = before ++ rest ∧
        (before = [] ∨ before.getLast? = some (.code '\n')) ∧ Binding Silent name rest := by
  rw [binds_iff hname]
  constructor
  · rintro ⟨front, t, hsplit, hstart, hbound⟩
    obtain ⟨c, t, rfl, hc⟩ := hbound.exists_head hname hword
    obtain ⟨before, after, rfl, rfl, rfl⟩ :=
      exists_code h hsplit (Text.not_blank_of_word hc) (not_quote_of_word hc)
    obtain ⟨hbefore, hafter⟩ := standing_append.mp h
    refine ⟨before, _, rfl, ?_, (binding_iff hafter hname hword).mp hbound⟩
    exact hstart.imp hbefore.blanked_eq_nil_iff.mp (last_blanked_iff hbefore).mp
  · rintro ⟨before, rest, rfl, hstart, hbinding⟩
    obtain ⟨hbefore, hrest⟩ := standing_append.mp h
    refine ⟨_, _, List.flatMap_append, ?_, (binding_iff hrest hname hword).mpr hbinding⟩
    exact hstart.imp hbefore.blanked_eq_nil_iff.mpr (last_blanked_iff hbefore).mpr

theorem exists_open {qs : List Piece} (h : WellNested (codeOf (ps ++ qs))) : ∃ bs, Open ps bs := by
  have hrun := run_nested h rfl 1 []
  have hcomes := comes_run open_nil ps
  rw [run_append] at hrun
  generalize hr : Bracket.run (lineBehind []) [] ps = r at hcomes
  cases hcomes with
  | ended hopen => exact ⟨_, hopen⟩
  | stopped =>
      have hline : lineBehind [] = 1 := rfl
      rw [hline] at hr
      rw [hr] at hrun
      cases hrun

end Lines

end Source

namespace Python

open Source Text

variable {source name : String}

structure Sound (source : String) (ps : List Piece) : Prop where
  reads : Reads .python source.toList ps
  nested : WellNested (codeOf ps)
  indented : indentFault? (ps.flatMap Piece.blanked) = none

theorem validate_eq_ok_iff : validate source name = .ok () ↔
    ∃ ps, Sound source ps ∧ binds name.toList (ps.flatMap Piece.blanked) = true := by
  constructor
  · intro h
    obtain ⟨out, hscan, -⟩ := bind_ok h
    have hscan := ok_of_mapError hscan
    obtain ⟨ps, hreads, hnested, rfl⟩ := scan_eq_ok_iff.mp hscan
    rw [validate_of_scan hscan] at h
    cases hindent : indentFault? (ps.flatMap Piece.blanked) with
    | some f =>
        rw [hindent] at h
        cases h
    | none =>
        rw [hindent, Option.elim_none] at h
        split at h
        · next hbinds => exact ⟨ps, ⟨hreads, hnested, hindent⟩, hbinds⟩
        · cases h
  · rintro ⟨ps, ⟨hreads, hnested, hindent⟩, hbinds⟩
    rw [validate_of_scan (scan_eq_ok_iff.mpr ⟨ps, hreads, hnested, rfl⟩), hindent, Option.elim_none,
      if_pos hbinds]

def Hangs (ps : List Piece) : Prop :=
  ∀ before p rest bs, ps = before ++ p :: rest → LineStart before bs → p.Visible → bs = []

/-- No definition of the name and no assignment to it goes on over the end of a line. -/
def Whole (name : List Char) (ps : List Piece) : Prop :=
  ∀ before bs, BindingLine Silent name ps before bs → BindingLine Piece.Space name ps before bs

/-- A source is accepted if and only if nothing else is wrong with it and some line binds the name,
whatever brackets are open there and wherever the lines end within the binding. If no line starts
at the left margin within brackets and no binding is broken, it is a line at top level. -/
theorem accepted_iff_binds (hname : name.toList ≠ []) (hword : ∀ c ∈ name.toList, isWord c = true) :
    (validate source name = .ok () ↔
      ∃ ps, Sound source ps ∧ ∃ before bs, BindingLine Silent name.toList ps before bs) ∧
    ((∀ ps, Sound source ps → Hangs ps ∧ Whole name.toList ps) →
      (validate source name = .ok () ↔
        ∃ ps, Sound source ps ∧ ∃ before, BindingLine Piece.Space name.toList ps before [])) := by
  have hsilent : ∀ p : Piece, p.Space → Silent p := by
    rintro p ⟨c, rfl, hblank, -⟩
    exact not_visible_code hblank
  have haccepted : validate source name = .ok () ↔
      ∃ ps, Sound source ps ∧ ∃ before bs, BindingLine Silent name.toList ps before bs := by
    refine validate_eq_ok_iff.trans (exists_congr fun ps => and_congr_right fun hsound => ?_)
    rw [binds_blanked_iff hsound.reads.standing hname hword]
    constructor
    · rintro ⟨before, rest, rfl, hstart, hbinding⟩
      obtain ⟨bs, hopen⟩ := exists_open hsound.nested
      exact ⟨before, bs, ⟨hstart, hopen⟩, rest, rfl, hbinding⟩
    · rintro ⟨before, bs, ⟨hstart, -⟩, rest, rfl, hbinding⟩
      exact ⟨before, rest, rfl, hstart, hbinding⟩
  refine ⟨haccepted, fun hplain => haccepted.trans ?_⟩
  refine exists_congr fun ps => and_congr_right fun hsound => exists_congr fun before => ?_
  obtain ⟨hhangs, hwhole⟩ := hplain ps hsound
  constructor
  · rintro ⟨bs, hline⟩
    obtain ⟨hstart, rest, rfl, hbinding⟩ := hwhole before bs hline
    obtain ⟨c, after, rfl, hc⟩ := hbinding.exists_head hname
    have hletter : ∀ d ∈ ['d', 'a', 'c'], isWord d = true := List.all_eq_true.mp rfl
    have hseen := hc.elim (hletter c) fun hhead => hword c (List.mem_of_head? hhead)
    obtain rfl := hhangs before (.code c) after bs rfl hstart (.code (not_blank_of_word hseen))
    exact ⟨hstart, _, rfl, hbinding⟩
  · rintro ⟨hstart, rest, hsplit, hbinding⟩
    exact ⟨[], hstart, rest, hsplit, hbinding.mono hsilent⟩

theorem accepted_iff_binds_assignment : "f".toList ≠ [] ∧ (∀ c ∈ "f".toList, isWord c = true) ∧
    (∀ ps, Sound "f = 1\n" ps → Hangs ps ∧ Whole "f".toList ps) ∧
    ∃ ps, Sound "f = 1\n" ps ∧ ∃ before, BindingLine Piece.Space "f".toList ps before [] := by
  have hname : "f".toList ≠ [] := by decide
  have hword : ∀ c ∈ "f".toList, isWord c = true := List.all_eq_true.mp rfl
  have hvalid : validate "f = 1\n" "f" = .ok () := ok_of_toOption (by decide +kernel)
  -- behind the only line feed there is nothing
  have hfirst : ∀ {before rest : List Piece} {p : Piece} {bs : List Bracket},
      written "f = 1\n".toList = before ++ p :: rest → LineStart before bs →
        before = [] ∧ bs = [] := by
    rintro before rest p bs hsplit ⟨rfl | hfeed, hopen⟩
    · have hrun := run_of_open hopen
      exact ⟨rfl, (Prod.mk.inj (Except.ok.inj hrun)).2.symm⟩
    · obtain ⟨before, rfl⟩ := List.getLast?_eq_some_iff.mp hfeed
      have hfeeds : written "f = 1".toList ++ .code '\n' :: [] =
          before ++ .code '\n' :: (p :: rest) := by
        simpa using hsplit
      obtain ⟨-, -, hrest⟩ := (List.append_cons_inj_of_notMem (by decide) (by decide)).mp hfeeds
      cases hrest
  have hplain : ∀ ps, Sound "f = 1\n" ps → Hangs ps ∧ Whole "f".toList ps := by
    intro ps hsound
    have hread : pieces .python "f = 1\n".toList = ⟨written "f = 1\n".toList, none⟩ := by
      decide +kernel
    obtain rfl : written "f = 1\n".toList = ps :=
      congrArg Pieces.pieces (hread.symm.trans (reads_iff.mp hsound.reads))
    refine ⟨fun before p rest bs hsplit hstart _ => (hfirst hsplit hstart).2, ?_⟩
    rintro before bs ⟨hstart, rest, hsplit, hbinding⟩
    obtain ⟨c, after, rfl, -⟩ := hbinding.exists_head hname
    obtain ⟨rfl, rfl⟩ := hfirst hsplit hstart
    refine ⟨hstart, _, hsplit, ?_⟩
    rw [← List.nil_append (Piece.code c :: after), ← hsplit]
    have hspace : ∀ p ∈ [Piece.code ' '], p.Space := by simp [Piece.Space]; decide
    have hsingle : ∃ c ∈ (text (written " 1\n".toList)).head?, c ≠ '=' :=
      ⟨' ', by decide, by decide⟩
    exact Binding.assignment hspace hsingle
  exact ⟨hname, hword, hplain, ((accepted_iff_binds hname hword).2 hplain).mp hvalid⟩

def argument : String := "g(\nf = 1\n)\n"

theorem argument_passes_for_binding : validate argument "f" = .ok () ∧
    ¬ ∃ ps, Sound argument ps ∧ ∃ before, BindingLine Silent "f".toList ps before [] := by
  refine ⟨ok_of_toOption (by decide +kernel), ?_⟩
  rintro ⟨ps, hsound, before, ⟨-, hopen⟩, rest, rfl, hbinding⟩
  have hread : pieces .python argument.toList = ⟨written argument.toList, none⟩ := by
    decide +kernel
  have hpieces : written argument.toList = before ++ rest :=
    congrArg Pieces.pieces (hread.symm.trans (reads_iff.mp hsound.reads))
  obtain ⟨c, after, rfl, hc⟩ := hbinding.exists_head (by decide)
  have hmem : Piece.code c ∈ written argument.toList := by simp [hpieces]
  obtain rfl : c = 'f' := by
    have hnone : ['d', 'a', 'c'].all fun d => decide (Piece.code d ∉ written argument.toList) := by
      decide +kernel
    rcases hc with hc | hc
    · exact absurd hmem (of_decide_eq_true (List.all_eq_true.mp hnone c hc))
    · exact (Option.some.inj hc).symm
  have hfront : written "g(\n".toList ++ .code 'f' :: written " = 1\n)\n".toList =
      before ++ .code 'f' :: after := hpieces
  obtain ⟨rfl, -, -⟩ := (List.append_cons_inj_of_notMem (by decide) (by decide)).mp hfront
  have hrun := run_of_open hopen
  cases (Prod.mk.inj (Except.ok.inj hrun)).2

end Python

end FunctionJar
