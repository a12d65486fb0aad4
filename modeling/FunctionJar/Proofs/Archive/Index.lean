import FunctionJar.Archive.Index
import FunctionJar.Proofs.ClassName
import FunctionJar.Proofs.Text.Trim
import FunctionJar.Proofs.Text.Utf8

namespace FunctionJar

namespace Text

end Text

namespace ClassName

variable {name : String}

theorem Valid.ne_empty (h : Valid name) : name ≠ "" := by
  rintro rfl
  exact absurd (fault?_eq_none_iff.mpr h) (by simp [fault?])

theorem Valid.mem {c : Char} (h : Valid name) (hc : c ∈ name.toList) :
    c = '.' ∨ Starts c ∨ ('0' ≤ c ∧ c ≤ '9') := by
  obtain ⟨parts, hsplits, hparts⟩ := h
  rw [← hsplits.joined] at hc
  refine (Text.mem_intercalate hc).imp List.mem_singleton.mp ?_
  rintro ⟨part, hpart, hmem⟩
  obtain ⟨⟨d, ds, rfl, hd, hds⟩, -⟩ := hparts part hpart
  rcases List.mem_cons.mp hmem with rfl | hmem
  · exact .inl hd
  · exact hds c hmem

theorem Valid.not_blank {c : Char} (h : Valid name) (hc : c ∈ name.toList) :
    Text.isBlank c = false := by
  have hle (a b : Char) : a ≤ b ↔ a.toNat ≤ b.toNat := Iff.rfl
  rcases h.mem hc with rfl | (hrange | hrange | rfl | rfl) | hrange
  case inl | inr.inl.inr.inr.inl | inr.inl.inr.inr.inr => rfl
  all_goals
    simp only [hle] at hrange
    simp at hrange
    simp only [Text.isBlank, Bool.or_eq_false_iff, Bool.and_eq_false_iff, decide_eq_false_iff_not,
      beq_eq_false_iff_ne]
    omega

end ClassName

namespace Archive

end Archive

end FunctionJar
