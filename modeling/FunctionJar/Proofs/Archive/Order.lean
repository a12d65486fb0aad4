import FunctionJar.Proofs.Archive.Contents

namespace FunctionJar

namespace UnitResult

def told (x : UnitResult) : Nat × Outcome := (x.index, x.outcome)

theorem map_sort_eq {β : Type} (key : β → Nat) {f : UnitResult → β}
    (hkey : ∀ x, key (f x) = x.index) {rs : List UnitResult} {ks : List β}
    (hperm : (rs.map f).Perm ks) (hks : ks.Pairwise fun a b => key a < key b) :
    (sort rs).map f = ks := by
  have hsort : ((sort rs).map f).Perm ks := ((sort_perm rs).map f).trans hperm
  have hsorted : ((sort rs).map f).Pairwise fun a b => key a ≤ key b := by
    rw [List.pairwise_map]
    exact (sort_sorted rs).imp fun hle => by rwa [hkey, hkey]
  have hnodup : (ks.map key).Nodup := by
    rw [List.Nodup, List.pairwise_map]
    exact hks.imp Nat.ne_of_lt
  refine List.Perm.eq_of_pairwise ?_ hsorted (hks.imp Nat.le_of_lt) hsort
  intro a b ha hb hle hge
  exact List.inj_on_of_nodup_map hnodup (hsort.subset ha) hb (Nat.le_antisymm hle hge)

theorem sort_strict {rs : List UnitResult} (hdistinct : (rs.map (·.index)).Nodup) :
    (sort rs).Pairwise fun x y => x.index < y.index := by
  have hnodup : ((sort rs).map (·.index)).Nodup :=
    ((sort_perm rs).map (·.index)).nodup_iff.mpr hdistinct
  rw [List.Nodup, List.pairwise_map] at hnodup
  exact (sort_sorted rs).imp₂ (fun _ _ hle hne => Nat.lt_of_le_of_ne hle hne) hnodup

theorem sort_eq_of_perm {rs ss : List UnitResult} (hdistinct : (rs.map (·.index)).Nodup)
    (hperm : rs.Perm ss) : sort rs = sort ss := by
  have hstrict := sort_strict ((hperm.map (·.index)).nodup_iff.mp hdistinct)
  have hmap : (rs.map id).Perm (sort ss) := by
    rw [List.map_id]
    exact hperm.trans (sort_perm ss).symm
  have hsort := map_sort_eq (·.index) (f := id) (fun _ => rfl) hmap hstrict
  rwa [List.map_id] at hsort

end UnitResult

namespace Archive

open Text (Bytes)

variable {δ : Type} [DecidableEq δ] {digest : Bytes → δ}

theorem rejectFrom_append (digest : Bytes → δ) (claims : List (Claim δ)) (xs : List UnitResult) :
    ∃ claims', ∀ ys, rejectFrom digest claims (xs ++ ys) =
      rejectFrom digest claims xs ++ rejectFrom digest claims' ys := by
  induction xs generalizing claims with
  | nil => exact ⟨claims, fun _ => rfl⟩
  | cons x xs ih =>
      cases hx : x.outcome with
      | failed f =>
          obtain ⟨claims', h⟩ := ih claims
          exact ⟨claims', fun ys => by simp only [List.cons_append, rejectFrom, hx, h]⟩
      | compiled u =>
          cases hclash : u.entries.findSome? (clashOf? digest claims) with
          | some clash =>
              obtain ⟨claims', h⟩ := ih claims
              exact ⟨claims', fun ys => by simp only [List.cons_append, rejectFrom, hx, hclash, h]⟩
          | none =>
              obtain ⟨claims', h⟩ := ih (claim digest u.className claims u.entries)
              exact ⟨claims', fun ys => by simp only [List.cons_append, rejectFrom, hx, hclash, h]⟩

theorem told_rejectFrom {claims : List (Claim δ)} {xs ys : List UnitResult}
    (h : xs.map (·.told) = ys.map (·.told)) :
    (rejectFrom digest claims xs).map (·.told) = (rejectFrom digest claims ys).map (·.told) := by
  induction xs generalizing claims ys with
  | nil =>
      obtain rfl : ys = [] := by simpa using h.symm
      rfl
  | cons x xs ih =>
      cases ys with
      | nil => simp at h
      | cons y ys =>
          simp only [List.map_cons, List.cons.injEq, UnitResult.told, Prod.mk.injEq] at h
          obtain ⟨⟨hindex, houtcome⟩, hrest⟩ := h
          cases hx : x.outcome with
          | failed f =>
              have hy : y.outcome = .failed f := houtcome ▸ hx
              simp only [rejectFrom, hx, hy, List.map_cons, UnitResult.told, hindex]
              exact congrArg _ (ih hrest)
          | compiled u =>
              have hy : y.outcome = .compiled u := houtcome ▸ hx
              simp only [rejectFrom, hx, hy]
              split <;> simp only [List.map_cons, UnitResult.told, hx, hy, hindex] <;>
                exact congrArg _ (ih hrest)

/-- Units may end in any order: the same ones clash, for the same reasons, the report and the
failures are the same, and the archive has the same classes and files in the same order. -/
theorem completion_order_is_invisible {rs ss : List UnitResult}
    (hdistinct : (rs.map (·.index)).Nodup) (hperm : rs.Perm ss) :
    rejectConflicts rs = rejectConflicts ss ∧
      aggregate (rejectConflicts rs) = aggregate (rejectConflicts ss) ∧
      classNames (assembled rs) = classNames (assembled ss) ∧
      contents (assembled rs) = contents (assembled ss) := by
  have hreject : rejectConflicts rs = rejectConflicts ss := by
    rw [rejectConflicts, rejectConflicts, rejectConflictsBy, rejectConflictsBy,
      UnitResult.sort_eq_of_perm hdistinct hperm]
  have hunits : assembled rs = assembled ss := by rw [assembled, assembled, hreject]
  exact ⟨hreject, by rw [hreject], by rw [hunits], by rw [hunits]⟩

theorem completion_order_is_invisible_reversed :
    (overlapping.reverse.map (·.index)).Nodup ∧ overlapping.reverse.Perm overlapping ∧
      (aggregate (rejectConflicts overlapping.reverse)).failures =
        [⟨"p.C", .diagnostic "archive entry p/H clashes with the one produced by p.A"⟩] ∧
      classNames (assembled overlapping.reverse) = ["p.A", "p.B"] := by
  have hdistinct : (overlapping.reverse.map (·.index)).Nodup := by decide
  have hperm : overlapping.reverse.Perm overlapping := List.reverse_perm overlapping
  obtain ⟨-, haggregate, hclasses, -⟩ := completion_order_is_invisible hdistinct hperm
  refine ⟨hdistinct, hperm, ?_, ?_⟩
  · rw [haggregate, rejectConflicts, aggregate_of_sorted (sorted_rejectConflicts overlapping),
      rejectConflictsBy, sort_overlapping]
    decide +kernel
  · rw [hclasses, assembled_eq, rejectConflicts, rejectConflictsBy, sort_overlapping]
    decide +kernel

end Archive

end FunctionJar
