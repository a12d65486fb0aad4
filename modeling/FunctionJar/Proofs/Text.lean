import FunctionJar.Text.Blank
import FunctionJar.Text.Decimal

namespace FunctionJar.Text

theorem splitAt_of_not_mem {sep : Char} {s : List Char} (h : sep ∉ s) : splitAt sep s = [s] := by
  induction s with
  | nil => rfl
  | cons c s ih =>
      simp only [List.mem_cons, not_or] at h
      rw [splitAt, if_neg (Ne.symm h.1), ih h.2]

theorem splitAt_append (sep : Char) (s t : List Char) :
    splitAt sep (s ++ sep :: t) = splitAt sep s ++ splitAt sep t := by
  induction s with
  | nil => simp [splitAt]
  | cons c s ih =>
      rw [List.cons_append, splitAt, splitAt, ih]
      by_cases hc : c = sep
      · simp [hc]
      · rw [if_neg hc, if_neg hc]
        cases hs : splitAt sep s with
        | nil => exact absurd hs (splitAt_ne_nil sep s)
        | cons piece pieces => rfl

theorem toString_toList (v : Nat) : (toString v).toList = Nat.toDigits 10 v := by
  rw [Nat.toString_eq_ofList_toDigits, String.toList_ofList]

theorem isDigit_of_mem_toString {v : Nat} {c : Char} (h : c ∈ (toString v).toList) : c.isDigit := by
  rw [toString_toList] at h
  exact Nat.isDigit_of_mem_toDigits (by decide) (by decide) h

theorem exists_toString (v : Nat) : ∃ c cs, (toString v).toList = c :: cs := by
  rw [toString_toList]
  exact List.exists_cons_of_ne_nil Nat.toDigits_ne_nil

theorem natOfDigits_toString (v : Nat) : natOfDigits (toString v).toList = v := by
  have hdigits := Nat.ofDigitChars_ten_toDigits (n := v)
  rw [Nat.ofDigitChars_eq_foldl] at hdigits
  rw [toString_toList, natOfDigits]
  refine Eq.trans ?_ hdigits
  congr 1
  funext n c
  rw [Nat.mul_comm]
  rfl

theorem head_toDigits {v : Nat} (h : 0 < v) : (Nat.toDigits 10 v).head? ≠ some '0' := by
  induction v using Nat.strongRecOn with
  | ind v ih =>
      by_cases hsmall : v < 10
      · have hdigit : ∀ n < 10, 0 < n → Nat.digitChar n ≠ '0' := by decide
        rw [Nat.toDigits_of_lt_base hsmall]
        simpa using hdigit v hsmall h
      · rw [Nat.toDigits_of_base_le (by decide) (by omega)]
        have hnext := ih (v / 10) (by omega) (by omega)
        obtain ⟨c, cs, hcs⟩ := List.exists_cons_of_ne_nil
          (Nat.toDigits_ne_nil (n := v / 10) (b := 10))
        rw [hcs] at hnext ⊢
        exact hnext

theorem isUpper_iff {c : Char} : c.isUpper ↔ 65 ≤ c.toNat ∧ c.toNat ≤ 90 := by
  have h : c.isUpper = decide ('A'.val ≤ c.val ∧ c.val ≤ 'Z'.val) := rfl
  simp only [h, decide_eq_true_eq, UInt32.le_iff_toNat_le]
  rfl

theorem isLower_iff {c : Char} : c.isLower ↔ 97 ≤ c.toNat ∧ c.toNat ≤ 122 := by
  have h : c.isLower = (decide ('a'.val ≤ c.val) && decide (c.val ≤ 'z'.val)) := rfl
  simp only [h, Bool.and_eq_true, decide_eq_true_eq, UInt32.le_iff_toNat_le]
  rfl

theorem isDigit_iff {c : Char} : c.isDigit ↔ 48 ≤ c.toNat ∧ c.toNat ≤ 57 := by
  simp only [Char.isDigit, Bool.and_eq_true, decide_eq_true_eq, ge_iff_le, UInt32.le_iff_toNat_le]
  rfl

theorem toLower_cases (c : Char) :
    c.toLower = c ∨ (65 ≤ c.toNat ∧ c.toNat ≤ 90) ∧ c.toLower.toNat = c.toNat + 32 := by
  by_cases h : 'A'.val ≤ c.val ∧ c.val ≤ 'Z'.val
  · have hrange : 65 ≤ c.toNat ∧ c.toNat ≤ 90 := isUpper_iff.mp (decide_eq_true h)
    refine .inr ⟨hrange, ?_⟩
    have hsum : c.toLower.toNat = (c.val + 32).toNat := congrArg Char.toNat (dif_pos h)
    have hval : (c.val + 32).toNat = (c.toNat + 32) % 2 ^ 32 := UInt32.toNat_add c.val 32
    omega
  · exact .inl (dif_neg h)

/-- Texts that differ in letter case only have the same length, and their characters pair up. -/
theorem map_toLower_of_sameLetters {s t : String} (h : sameLetters s t) :
    s.toList.map Char.toLower = t.toList.map Char.toLower := by
  have := congrArg String.toList (beq_iff_eq.mp h)
  rwa [lower, lower, String.toList_ofList, String.toList_ofList] at this

end FunctionJar.Text
