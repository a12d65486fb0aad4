import FunctionJar.Archive.Conflict

namespace FunctionJar

namespace UnitResult

theorem sort_perm (rs : List UnitResult) : (sort rs).Perm rs := List.mergeSort_perm rs _

def Sorted (rs : List UnitResult) : Prop := rs.Pairwise fun x y => x.index ≤ y.index

theorem sort_sorted (rs : List UnitResult) : Sorted (sort rs) := by
  have htrans : ∀ x y z : UnitResult, decide (x.index ≤ y.index) → decide (y.index ≤ z.index) →
      decide (x.index ≤ z.index) := by
    intro x y z
    simp only [decide_eq_true_eq]
    omega
  have htotal : ∀ x y : UnitResult, decide (x.index ≤ y.index) || decide (y.index ≤ x.index) := by
    intro x y
    simp only [Bool.or_eq_true, decide_eq_true_eq]
    omega
  exact (List.pairwise_mergeSort htrans htotal rs).imp fun hle => by simpa using hle

theorem sort_of_sorted {rs : List UnitResult} (h : Sorted rs) : sort rs = rs :=
  List.mergeSort_of_pairwise (h.imp fun hle => by simpa using hle)

theorem sorted_iff_map {rs : List UnitResult} :
    Sorted rs ↔ (rs.map (·.index)).Pairwise (· ≤ ·) := by
  rw [Sorted, List.pairwise_map]

end UnitResult

namespace Archive

open Text (Bytes)

def entryAt? (es : List Entry) (path : String) : Option Entry := es.find? fun e => e.path == path

theorem entryAt?_append (es fs : List Entry) (path : String) :
    entryAt? (es ++ fs) path = (entryAt? es path).or (entryAt? fs path) := List.find?_append

theorem path_of_entryAt? {es : List Entry} {path : String} {e : Entry}
    (h : entryAt? es path = some e) : e.path = path := by
  simpa using List.find?_some h

theorem mem_of_entryAt? {es : List Entry} {path : String} {e : Entry}
    (h : entryAt? es path = some e) : e ∈ es := List.mem_of_find?_eq_some h

theorem entryAt?_isSome {es : List Entry} {e : Entry} (h : e ∈ es) :
    ∃ f, entryAt? es e.path = some f := by
  cases hf : entryAt? es e.path with
  | some f => exact ⟨f, rfl⟩
  | none => exact absurd (List.find?_eq_none.mp hf e h) (by simp)

variable {δ : Type} {digest : Bytes → δ}

/-- The claims name the first of the entries at each path, and its digest. -/
def Held (digest : Bytes → δ) (claims : List (Claim δ)) (es : List Entry) : Prop :=
  ∀ path, (claimOn? claims path).map (·.digest) =
    (entryAt? es path).map fun e => digest e.content

theorem Held.nil : Held digest [] [] := fun _ => rfl

theorem Held.claim {owner : String} {claims : List (Claim δ)} {es fs : List Entry}
    (h : Held digest claims es) : Held digest (claim digest owner claims fs) (es ++ fs) := by
  induction fs generalizing claims es with
  | nil => simpa [Archive.claim] using h
  | cons e fs ih =>
      have hnext : ∀ claims', Held digest claims' (es ++ [e]) →
          Held digest (Archive.claim digest owner claims' fs) (es ++ e :: fs) := by
        intro claims' h'
        simpa using ih h'
      rw [Archive.claim]
      split
      · next htaken =>
          refine hnext claims fun path => ?_
          rw [h path, entryAt?_append]
          by_cases hpath : e.path = path
          · have hfound : (entryAt? es path).isSome := by
              have := congrArg Option.isSome (h path)
              simpa [← hpath, htaken] using this.symm
            obtain ⟨f, hf⟩ := Option.isSome_iff_exists.mp hfound
            simp [hf]
          · simp [entryAt?, hpath]
      · next hfree =>
          refine hnext _ fun path => ?_
          have hclaims := h path
          simp only [claimOn?, List.find?_append, entryAt?] at hclaims hfree ⊢
          by_cases hpath : e.path = path
          · subst hpath
            have hnone : List.find? (fun c => c.path == e.path) claims = none := by
              simpa using hfree
            have hnone' : List.find? (fun f => f.path == e.path) es = none := by
              simpa [hnone] using hclaims.symm
            simp [hnone, hnone']
          · simpa [hpath] using hclaims

variable [DecidableEq δ]

theorem clashOf?_eq_none {claims : List (Claim δ)} {es : List Entry} (h : Held digest claims es)
    (e : Entry) : clashOf? digest claims e = none ↔ isReserved e.path = false ∧
      ∀ f, entryAt? es e.path = some f → digest f.content = digest e.content := by
  have hheld := h e.path
  rw [clashOf?]
  by_cases hreserved : isReserved e.path = true
  · simp [hreserved]
  · rw [if_neg hreserved]
    cases hclaim : claimOn? claims e.path with
    | none =>
        have hnone : entryAt? es e.path = none := by simpa [hclaim] using hheld.symm
        simp [hreserved, hnone]
    | some c =>
        rw [hclaim, Option.map_some] at hheld
        obtain ⟨f, hf, hd⟩ := Option.map_eq_some_iff.mp hheld.symm
        simp [hreserved, hf, hd]

/-- The outcomes that a result may have once clashing units have failed. -/
inductive Judged : Outcome → Outcome → Prop
  | same (o : Outcome) : Judged o o
  | clashed (c : CompiledUnit) (clash : Clash) :
      Judged (.compiled c) (.failed ⟨c.className, .diagnostic clash.message⟩)

theorem map_index_rejectFrom (claims : List (Claim δ)) (rs : List UnitResult) :
    (rejectFrom digest claims rs).map (·.index) = rs.map (·.index) := by
  induction rs generalizing claims with
  | nil => rfl
  | cons x rest ih =>
      rw [rejectFrom]
      split
      · simp [ih]
      · split <;> simp [ih]

theorem mem_rejectFrom {claims : List (Claim δ)} {rs : List UnitResult} {y : UnitResult}
    (h : y ∈ rejectFrom digest claims rs) :
    ∃ x ∈ rs, y.index = x.index ∧ Judged x.outcome y.outcome := by
  induction rs generalizing claims with
  | nil => simp [rejectFrom] at h
  | cons x rest ih =>
      have hrest : ∀ claims', y ∈ rejectFrom digest claims' rest →
          ∃ x' ∈ x :: rest, y.index = x'.index ∧ Judged x'.outcome y.outcome := by
        intro claims' h'
        obtain ⟨x', hx', hy⟩ := ih h'
        exact ⟨x', List.mem_cons_of_mem _ hx', hy⟩
      rw [rejectFrom] at h
      split at h
      · rcases List.mem_cons.mp h with rfl | h
        · exact ⟨y, by simp, rfl, .same _⟩
        · exact hrest _ h
      · next c hc =>
          split at h
          · next clash _ =>
              rcases List.mem_cons.mp h with rfl | h
              · exact ⟨x, by simp, rfl, hc ▸ .clashed c clash⟩
              · exact hrest _ h
          · rcases List.mem_cons.mp h with rfl | h
            · exact ⟨y, by simp, rfl, .same _⟩
            · exact hrest _ h

theorem map_index_rejectConflicts (rs : List UnitResult) :
    (rejectConflictsBy digest rs).map (·.index) = (UnitResult.sort rs).map (·.index) :=
  map_index_rejectFrom [] _

theorem sorted_rejectConflicts (rs : List UnitResult) :
    UnitResult.Sorted (rejectConflictsBy digest rs) := by
  rw [UnitResult.sorted_iff_map, map_index_rejectConflicts, ← UnitResult.sorted_iff_map]
  exact UnitResult.sort_sorted rs

theorem mem_rejectConflicts {rs : List UnitResult} {y : UnitResult}
    (h : y ∈ rejectConflictsBy digest rs) :
    ∃ x ∈ rs, y.index = x.index ∧ Judged x.outcome y.outcome := by
  obtain ⟨x, hx, hy⟩ := mem_rejectFrom h
  exact ⟨x, (UnitResult.sort_perm rs).subset hx, hy⟩

/-- Units in an order in which none has an entry at a reserved path, or at a path where the first
entry before it has another digest. -/
def Compatible (digest : Bytes → δ) (before : List Entry) : List CompiledUnit → Prop
  | [] => True
  | u :: rest =>
    (∀ e ∈ u.entries, isReserved e.path = false ∧
      ∀ f, entryAt? before e.path = some f → digest f.content = digest e.content) ∧
    Compatible digest (before ++ u.entries) rest

theorem compatible_rejectFrom {claims : List (Claim δ)} {before : List Entry}
    (h : Held digest claims before) (rs : List UnitResult) :
    Compatible digest before ((rejectFrom digest claims rs).filterMap (·.outcome.unit?)) := by
  induction rs generalizing claims before with
  | nil => trivial
  | cons x rest ih =>
      rw [rejectFrom]
      split
      · next f hf =>
          rw [List.filterMap_cons_none (by simp [hf, Outcome.unit?])]
          exact ih h
      · next c hc =>
          split
          · rw [List.filterMap_cons_none (by simp [Outcome.unit?])]
            exact ih h
          · next hnone =>
              rw [List.filterMap_cons_some (b := c) (by simp [hc, Outcome.unit?])]
              refine ⟨fun e he => ?_, ih h.claim⟩
              exact (clashOf?_eq_none h e).mp (List.findSome?_eq_none_iff.mp hnone e he)

end Archive

theorem aggregate_of_sorted {rs : List UnitResult} (h : UnitResult.Sorted rs) :
    aggregate rs =
      ⟨⟨(rs.filterMap (·.outcome.unit?)).map (·.className),
          (rs.filterMap (·.outcome.failure?)).map (·.className)⟩,
        rs.filterMap (·.outcome.failure?), rs.filterMap (·.outcome.unit?)⟩ := by
  rw [aggregate, UnitResult.sort_of_sorted h]
  simp only [List.filterMap_map]
  rfl

end FunctionJar
