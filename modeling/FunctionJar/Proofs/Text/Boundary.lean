import FunctionJar.Text.Boundary

namespace FunctionJar.Text

/-- What is left of a text that may have `limit` bytes: all of it if it has no more, else the
longest beginning of whole characters that has no more, and an ellipsis. -/
inductive Kept (limit : Nat) (s : List Char) : List Char → Prop
  | whole (h : (encode s).length ≤ limit) : Kept limit s s
  | cut {front : List Char} (h : limit < (encode s).length) (hfront : front <+: s)
      (hfits : (encode front).length ≤ limit)
      (hlongest : ∀ other, other <+: s → (encode other).length ≤ limit → other <+: front) :
      Kept limit s (front ++ ['…'])

theorem encode_append (s t : List Char) : encode (s ++ t) = encode s ++ encode t :=
  List.flatMap_append

theorem length_encode_cons (c : Char) (s : List Char) :
    (encode (c :: s)).length = c.utf8Size + (encode s).length := by
  rw [encode, List.flatMap_cons, List.length_append, String.length_utf8EncodeChar, ← encode]

theorem length_encode_pos {s : List Char} (h : s ≠ []) : 0 < (encode s).length := by
  obtain ⟨c, s, rfl⟩ := List.exists_cons_of_ne_nil h
  rw [length_encode_cons]
  exact Nat.add_pos_left c.utf8Size_pos _

theorem prefix_of_length_encode_le {s front other : List Char} (hfront : front <+: s)
    (hother : other <+: s) (h : (encode other).length ≤ (encode front).length) :
    other <+: front := by
  rcases List.prefix_or_prefix_of_prefix hother hfront with hle | ⟨more, rfl⟩
  · exact hle
  · rw [encode_append, List.length_append] at h
    have hmore : more = [] := Classical.not_not.mp fun hne => by
      have hpos := length_encode_pos hne
      omega
    simp [hmore]

theorem front?_zero (s : List Char) : front? 0 s = some [] := by
  cases s <;> rfl

theorem front?_ok {n : Nat} {s front : List Char} (h : front? n s = some front) :
    front <+: s ∧ (encode front).length = n := by
  induction s generalizing n front with
  | nil =>
      cases n with
      | zero =>
          obtain rfl := Option.some.inj h
          exact ⟨List.prefix_refl [], rfl⟩
      | succ n => cases h
  | cons c s ih =>
      cases n with
      | zero =>
          obtain rfl := Option.some.inj h
          exact ⟨List.prefix_iff_eq_append.mpr rfl, rfl⟩
      | succ n =>
          rw [front?] at h
          split at h
          · next hfits =>
              obtain ⟨rest, hrest, rfl⟩ := Option.map_eq_some_iff.mp h
              obtain ⟨hbegins, hlength⟩ := ih hrest
              refine ⟨(List.prefix_cons_inj c).mpr hbegins, ?_⟩
              rw [length_encode_cons, hlength, Nat.add_sub_cancel' hfits]
          · cases h

theorem front?_of_prefix {s front : List Char} (h : front <+: s) :
    front? (encode front).length s = some front := by
  obtain ⟨behind, rfl⟩ := h
  induction front with
  | nil => exact front?_zero _
  | cons c front ih =>
      obtain ⟨n, hn⟩ : ∃ n, (encode (c :: front)).length = n + 1 :=
        Nat.exists_eq_add_one.mpr (length_encode_pos (List.cons_ne_nil c front))
      have hsum := length_encode_cons c front
      have hfits : c.utf8Size ≤ n + 1 := by omega
      have hrest : n + 1 - c.utf8Size = (encode front).length := by omega
      rw [hn, List.cons_append, front?, if_pos hfits, hrest, ih]
      rfl

theorem cut?_eq_some (limit : Nat) (s : List Char) : cut? limit s = some (truncate limit s) :=
  (Option.some_get _).symm

theorem kept_truncate (limit : Nat) (s : List Char) : Kept limit s (truncate limit s) := by
  have ht := cut?_eq_some limit s
  generalize truncate limit s = t at ht ⊢
  unfold cut? at ht
  simp only at ht
  split at ht
  · next hfits =>
      obtain rfl := Option.some.inj ht
      exact .whole hfits
  · next hlong =>
      obtain ⟨i, hi, hle, -, hlast⟩ := boundaryBack?_spec (encode s) limit
      obtain ⟨j, hj, ht⟩ := Option.bind_eq_some_iff.mp ht
      obtain rfl := Option.some.inj (hi.symm.trans hj)
      obtain ⟨front, hfront, ht⟩ := Option.bind_eq_some_iff.mp ht
      obtain rfl := Option.some.inj ht
      obtain ⟨hbegins, hlength⟩ := front?_ok hfront
      refine .cut (Nat.lt_of_not_le hlong) hbegins (hlength ▸ hle) fun other hother hfits => ?_
      have hboundary : isCharBoundary (encode s) (encode other).length := by
        rw [← isSome_front?, front?_of_prefix hother]
        rfl
      refine prefix_of_length_encode_le hbegins hother (Nat.le_of_not_lt fun hlt => ?_)
      exact hlast _ (hlength ▸ hlt) hfits hboundary

example : truncate 3 "ééé".toList = "é…".toList := by
  decide

end FunctionJar.Text
