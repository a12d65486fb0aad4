import FunctionJar.Archive.Assemble
import FunctionJar.Proofs.Archive.Rejection
import Mathlib.Data.List.Nodup

namespace FunctionJar.Archive

open Text (Bytes)

theorem mem_firsts {seen : List String} {es : List Entry} {e : Entry} :
    e ∈ (firsts seen es).1 ↔ e.path ∉ seen ∧ entryAt? es e.path = some e := by
  induction es generalizing seen with
  | nil => simp [firsts, entryAt?]
  | cons f es ih =>
      rw [firsts]
      by_cases hseen : f.path ∈ seen
      · rw [if_pos (by simpa using hseen), ih]
        by_cases hpath : f.path = e.path
        · simp [← hpath, hseen]
        · simp [entryAt?, hpath]
      · rw [if_neg (by simpa using hseen)]
        simp only [List.mem_cons, ih, List.mem_append, List.not_mem_nil, or_false, not_or]
        by_cases hpath : f.path = e.path
        · have hfirst : entryAt? (f :: es) e.path = some f := by simp [entryAt?, hpath]
          rw [hfirst]
          constructor
          · rintro (rfl | ⟨⟨-, hne⟩, -⟩)
            · exact ⟨hseen, rfl⟩
            · exact absurd hpath.symm hne
          · rintro ⟨-, he⟩
            exact .inl (Option.some.inj he).symm
        · have hlater : entryAt? (f :: es) e.path = entryAt? es e.path := by
            simp [entryAt?, hpath]
          rw [hlater]
          constructor
          · rintro (rfl | ⟨⟨hs, -⟩, he⟩)
            · exact absurd rfl hpath
            · exact ⟨hs, he⟩
          · rintro ⟨hs, he⟩
            exact .inr ⟨⟨hs, fun h => hpath h.symm⟩, he⟩

theorem path_nodup_firsts (seen : List String) (es : List Entry) :
    ((firsts seen es).1.map (·.path)).Nodup := by
  induction es generalizing seen with
  | nil => simp [firsts]
  | cons f es ih =>
      rw [firsts]
      split
      · exact ih seen
      · rw [List.map_cons, List.nodup_cons]
        refine ⟨fun hmem => ?_, ih _⟩
        obtain ⟨e, he, hpath⟩ := List.mem_map.mp hmem
        exact (mem_firsts.mp he).1 (by simp [hpath])

theorem isReserved_iff {path : String} :
    isReserved path = true ↔ path = manifestPath ∨ path = indexPath := by
  simp [isReserved]

theorem path_nodup_contents (us : List CompiledUnit) : ((contents us).map (·.path)).Nodup := by
  rw [contents, List.map_append, List.nodup_append]
  have hhead : [manifestPath, indexPath].Nodup := by decide
  refine ⟨hhead, path_nodup_firsts _ _, ?_⟩
  intro p hp q hq hpq
  obtain ⟨e, he, rfl⟩ := List.mem_map.mp hq
  have hfree := (mem_firsts.mp he).1
  simp only [headFiles, List.map_cons, List.map_nil] at hp
  exact hfree (hpq ▸ hp)

theorem mem_contents {us : List CompiledUnit} {e : Entry} (h : isReserved e.path = false) :
    e ∈ contents us ↔ entryAt? (entries us) e.path = some e := by
  have hfree : e.path ∉ [manifestPath, indexPath] := by
    intro hmem
    have : isReserved e.path = true := isReserved_iff.mpr (by simpa using hmem)
    simp [h] at this
  rw [contents, List.mem_append, mem_firsts]
  constructor
  · rintro (hhead | ⟨-, he⟩)
    · refine absurd ?_ hfree
      simp only [headFiles, List.mem_cons, List.not_mem_nil, or_false] at hhead
      rcases hhead with rfl | rfl <;> simp
    · exact he
  · exact fun he => .inr ⟨hfree, he⟩

/-- The digests tell the contents of the entries of compiled units apart. -/
def Distinguishes {δ : Type} (digest : Bytes → δ) (rs : List UnitResult) : Prop :=
  ∀ e ∈ entries (rs.filterMap (·.outcome.unit?)), ∀ f ∈ entries (rs.filterMap (·.outcome.unit?)),
    digest e.content = digest f.content → e.content = f.content

/-- A unit has no two entries at one path with different contents. -/
def Consistent (u : CompiledUnit) : Prop :=
  ∀ e ∈ u.entries, ∀ f ∈ u.entries, e.path = f.path → e.content = f.content

theorem consistent_iff {u : CompiledUnit} :
    Consistent u ↔ ∀ e ∈ u.entries, entryAt? u.entries e.path = some e := by
  constructor
  · intro h e he
    obtain ⟨f, hf⟩ := entryAt?_isSome he
    have hpath := path_of_entryAt? hf
    have hcontent := h f (mem_of_entryAt? hf) e he hpath
    rw [hf]
    cases e
    cases f
    simp_all
  · intro h e he f hf hpath
    have hfirst := h f hf
    rw [← hpath, h e he] at hfirst
    rw [Option.some.inj hfirst]

theorem unit_of_judged {x y : UnitResult} {c : CompiledUnit} (h : Judged x.outcome y.outcome)
    (hy : y.outcome.unit? = some c) : x.outcome.unit? = some c := by
  generalize x.outcome = o at *
  generalize y.outcome = o' at *
  cases h with
  | same => exact hy
  | clashed => simp [Outcome.unit?] at hy

variable {δ : Type} [DecidableEq δ] {digest : Bytes → δ} {rs : List UnitResult}

theorem entries_rejectConflicts_subset :
    entries ((rejectConflictsBy digest rs).filterMap (·.outcome.unit?)) ⊆
      entries (rs.filterMap (·.outcome.unit?)) := by
  intro e he
  obtain ⟨c, hc, hec⟩ := List.mem_flatMap.mp he
  obtain ⟨y, hy, hyc⟩ := List.mem_filterMap.mp hc
  obtain ⟨x, hx, -, hjudged⟩ := mem_rejectConflicts hy
  exact List.mem_flatMap.mpr
    ⟨c, List.mem_filterMap.mpr ⟨x, hx, unit_of_judged hjudged hyc⟩, hec⟩

omit [DecidableEq δ] in
theorem Compatible.split {before : List Entry} {front back : List CompiledUnit} {u : CompiledUnit}
    (h : Compatible digest before (front ++ u :: back)) {e : Entry} (he : e ∈ u.entries) :
    isReserved e.path = false ∧ ∀ f, entryAt? (before ++ entries front) e.path = some f →
      digest f.content = digest e.content := by
  induction front generalizing before with
  | nil => simpa [entries] using h.1 e he
  | cons v front ih =>
      have := ih h.2
      simpa [entries] using this

omit [DecidableEq δ] in
theorem entryAt?_entries_iff {us : List CompiledUnit} (h : Compatible digest [] us)
    (hdigest : ∀ e ∈ entries us, ∀ f ∈ entries us,
      digest e.content = digest f.content → e.content = f.content)
    {u : CompiledUnit} (hu : u ∈ us) {e : Entry} (he : e ∈ u.entries) :
    entryAt? (entries us) e.path = some e ↔ entryAt? u.entries e.path = some e := by
  obtain ⟨front, back, rfl⟩ := List.append_of_mem hu
  obtain ⟨g, hg⟩ := entryAt?_isSome he
  have hall : entries (front ++ u :: back) = entries front ++ (u.entries ++ entries back) := by
    simp [entries]
  have hsplit := entryAt?_append (entries front) (u.entries ++ entries back) e.path
  rw [entryAt?_append u.entries, hg, Option.some_or] at hsplit
  cases hfront : entryAt? (entries front) e.path with
  | none => rw [hall, hsplit, hfront, hg, Option.none_or]
  | some f =>
      -- What an earlier unit has at the path, every entry of this unit there has too.
      have hsame : ∀ x ∈ u.entries, x.path = e.path → x = f := by
        intro x hx hpath
        have hd := (h.split hx).2 f (by simpa [hpath] using hfront)
        have hf : f ∈ entries (front ++ u :: back) := by
          rw [hall]
          exact List.mem_append_left _ (mem_of_entryAt? hfront)
        have hx' : x ∈ entries (front ++ u :: back) := by
          rw [hall]
          exact List.mem_append_right _ (List.mem_append_left _ hx)
        have hcontent := hdigest f hf x hx' hd
        have hpaths := path_of_entryAt? hfront
        cases x
        cases f
        simp_all
      have hg' : g = f := hsame g (mem_of_entryAt? hg) (path_of_entryAt? hg)
      rw [hall, hsplit, hfront, hg, hg', Option.some_or]

def assembled (rs : List UnitResult) : List CompiledUnit := (aggregate (rejectConflicts rs)).units

theorem assembled_eq (rs : List UnitResult) :
    assembled rs = (rejectConflicts rs).filterMap (·.outcome.unit?) := by
  rw [assembled, rejectConflicts, aggregate_of_sorted (sorted_rejectConflicts rs)]

theorem compatible_assembled (rs : List UnitResult) :
    Compatible Sha256.digest [] (assembled rs) := by
  rw [assembled_eq]
  exact compatible_rejectFrom Held.nil _

theorem Distinguishes.assembled (h : Distinguishes Sha256.digest rs) :
    ∀ e ∈ entries (assembled rs), ∀ f ∈ entries (assembled rs),
      Sha256.digest e.content = Sha256.digest f.content → e.content = f.content := by
  rw [assembled_eq]
  intro e he f hf
  exact h e (entries_rejectConflicts_subset he) f (entries_rejectConflicts_subset hf)

theorem isReserved_assembled {u : CompiledUnit} (hu : u ∈ assembled rs) {e : Entry}
    (he : e ∈ u.entries) : isReserved e.path = false := by
  obtain ⟨front, back, hsplit⟩ := List.append_of_mem hu
  exact ((hsplit ▸ compatible_assembled rs).split he).1

theorem mem_contents_assembled (h : Distinguishes Sha256.digest rs) {u : CompiledUnit}
    (hu : u ∈ assembled rs) {e : Entry} (he : e ∈ u.entries) :
    e ∈ contents (assembled rs) ↔ entryAt? u.entries e.path = some e := by
  rw [mem_contents (isReserved_assembled hu he)]
  exact entryAt?_entries_iff (compatible_assembled rs) h.assembled hu he

theorem all_stored_iff (h : Distinguishes Sha256.digest rs) :
    (∀ u ∈ assembled rs, ∀ e ∈ u.entries, e ∈ contents (assembled rs)) ↔
      ∀ u ∈ assembled rs, Consistent u := by
  constructor
  · intro hall u hu
    exact consistent_iff.mpr fun e he => (mem_contents_assembled h hu he).mp (hall u hu e he)
  · intro hall u hu e he
    exact (mem_contents_assembled h hu he).mpr (consistent_iff.mp (hall u hu) e he)

theorem eq_of_mem_contents {us : List CompiledUnit} {e f : Entry} (he : e ∈ contents us)
    (hf : f ∈ contents us) (hpath : e.path = f.path) : e = f :=
  List.inj_on_of_nodup_map (path_nodup_contents us) he hf hpath

theorem entries_agree_iff (h : Distinguishes Sha256.digest rs) :
    (∀ e ∈ entries (assembled rs), ∀ f ∈ entries (assembled rs),
        e.path = f.path → e.content = f.content) ↔ ∀ u ∈ assembled rs, Consistent u := by
  constructor
  · intro hall u hu e he f hf
    exact hall e (List.mem_flatMap.mpr ⟨u, hu, he⟩) f (List.mem_flatMap.mpr ⟨u, hu, hf⟩)
  · intro hall e he f hf hpath
    obtain ⟨u, hu, heu⟩ := List.mem_flatMap.mp he
    obtain ⟨v, hv, hfv⟩ := List.mem_flatMap.mp hf
    have hstored := (all_stored_iff h).mpr hall
    rw [eq_of_mem_contents (hstored u hu e heu) (hstored v hv f hfv) hpath]

/-- An entry of a unit that stays compiled is in the archive exactly if it is the first at its path
in its own unit. So nothing is lost, and entries at one path agree, exactly if no unit that stays
compiled differs from itself at a path. -/
theorem stored_iff_first_in_unit (rs : List UnitResult) (h : Distinguishes Sha256.digest rs) :
    (∀ u ∈ assembled rs, ∀ e ∈ u.entries, isReserved e.path = false ∧
      (e ∈ contents (assembled rs) ↔ entryAt? u.entries e.path = some e)) ∧
    ((contents (assembled rs)).map (·.path)).Nodup ∧
    ((∀ u ∈ assembled rs, ∀ e ∈ u.entries, e ∈ contents (assembled rs)) ↔
      ∀ u ∈ assembled rs, Consistent u) ∧
    ((∀ e ∈ entries (assembled rs), ∀ f ∈ entries (assembled rs),
      e.path = f.path → e.content = f.content) ↔ ∀ u ∈ assembled rs, Consistent u) :=
  ⟨fun _ hu _ he => ⟨isReserved_assembled hu he, mem_contents_assembled h hu he⟩,
    path_nodup_contents _, all_stored_iff h, entries_agree_iff h⟩

def overlapping : List UnitResult :=
  [⟨0, .compiled ⟨"p.A", .java, [⟨"p/H", [1]⟩]⟩, 0⟩,
    ⟨1, .compiled ⟨"p.B", .java, [⟨"p/H", [1]⟩, ⟨"p/B", [1]⟩, ⟨"p/B", [2]⟩]⟩, 0⟩,
    ⟨2, .compiled ⟨"p.C", .java, [⟨"p/H", [2]⟩]⟩, 0⟩]

theorem stored_iff_first_in_unit_overlapping :
    Distinguishes Sha256.digest overlapping ∧
      ((∀ u ∈ assembled overlapping, ∀ e ∈ u.entries, e ∈ contents (assembled overlapping)) ↔
        ∀ u ∈ assembled overlapping, Consistent u) := by
  have h : Distinguishes Sha256.digest overlapping := by
    unfold Distinguishes
    decide +kernel
  exact ⟨h, (stored_iff_first_in_unit overlapping h).2.2.1⟩

theorem sort_overlapping : UnitResult.sort overlapping = overlapping :=
  UnitResult.sort_of_sorted (by unfold UnitResult.Sorted; decide)

/-- The second of two entries of one unit at one path is nowhere in the archive. -/
theorem second_entry_not_stored :
    ⟨1, .compiled ⟨"p.B", .java, [⟨"p/H", [1]⟩, ⟨"p/B", [1]⟩, ⟨"p/B", [2]⟩]⟩, 0⟩ ∈
        rejectConflicts overlapping ∧
      (⟨"p/B", [2]⟩ : Entry) ∉ contents (assembled overlapping) := by
  rw [assembled_eq, rejectConflicts, rejectConflictsBy, sort_overlapping]
  decide +kernel

end FunctionJar.Archive
