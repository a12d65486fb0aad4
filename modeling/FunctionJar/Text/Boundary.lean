import FunctionJar.Text.Utf8

namespace FunctionJar.Text

def encode (s : List Char) : Bytes := s.flatMap String.utf8EncodeChar

def isLead (b : UInt8) : Bool := b < 0x80 || 0xC0 ≤ b

def isCharBoundary (bytes : Bytes) (i : Nat) : Bool :=
  i == 0 || match bytes[i]? with
    | some b => isLead b
    | none => i == bytes.length

def boundaryBack? (bytes : Bytes) : Nat → Option Nat
  | 0 => if isCharBoundary bytes 0 then some 0 else none
  | i + 1 => if isCharBoundary bytes (i + 1) then some (i + 1) else boundaryBack? bytes i

/-- The characters of the first `n` bytes, `none` if these end within a character or the text has
fewer. -/
def front? : Nat → List Char → Option (List Char)
  | 0, _ => some []
  | _ + 1, [] => none
  | n + 1, c :: cs =>
    if c.utf8Size ≤ n + 1 then (front? (n + 1 - c.utf8Size) cs).map (c :: ·) else none

/-- The text itself if it has at most `limit` bytes, else what is in front of a boundary and an
ellipsis. -/
def cut? (limit : Nat) (s : List Char) : Option (List Char) :=
  let bytes := encode s
  if bytes.length ≤ limit then some s
  else do
    let i ← boundaryBack? bytes limit
    return (← front? i s) ++ ['…']

theorem isLead_ofNat {n : Nat} (hn : n < 256) :
    isLead (UInt8.ofNat n) ↔ n < 0x80 ∨ 0xC0 ≤ n := by
  have hbyte : (UInt8.ofNat n).toNat = n := by
    rw [UInt8.toNat_ofNat']
    exact Nat.mod_eq_of_lt hn
  simp [isLead, UInt8.lt_iff_toNat_lt, UInt8.le_iff_toNat_le, hbyte]

theorem exists_lead (c : Char) : ∃ b tail, String.utf8EncodeChar c = b :: tail ∧ isLead b ∧
    ∀ d ∈ tail, ¬ isLead d := by
  unfold String.utf8EncodeChar
  simp only
  generalize c.val.toNat = v
  have hlead (n : Nat) (hn : n < 256) (h : n < 0x80 ∨ 0xC0 ≤ n) : isLead (UInt8.ofNat n) :=
    (isLead_ofNat hn).mpr h
  have hinner (n : Nat) : ¬ isLead (UInt8.ofNat (n % 64 + 128)) := by
    rw [isLead_ofNat (by omega)]
    omega
  split
  · exact ⟨_, _, rfl, hlead _ (by omega) (by omega), by simp⟩
  · split
    · refine ⟨_, _, rfl, hlead _ (by omega) (by omega), ?_⟩
      exact List.forall_mem_cons.mpr ⟨hinner _, by simp⟩
    · split
      · refine ⟨_, _, rfl, hlead _ (by omega) (by omega), ?_⟩
        exact List.forall_mem_cons.mpr ⟨hinner _, List.forall_mem_cons.mpr ⟨hinner _, by simp⟩⟩
      · refine ⟨_, _, rfl, hlead _ (by omega) (by omega), ?_⟩
        exact List.forall_mem_cons.mpr ⟨hinner _, List.forall_mem_cons.mpr ⟨hinner _,
          List.forall_mem_cons.mpr ⟨hinner _, by simp⟩⟩⟩

theorem isCharBoundary_of_byte {bytes : Bytes} {i : Nat} {b : UInt8} (h : bytes[i]? = some b) :
    isCharBoundary bytes i = (i == 0 || isLead b) := by
  rw [isCharBoundary, h]

theorem isCharBoundary_inside {c : Char} {i : Nat} (hi : i ≠ 0) (h : i < c.utf8Size)
    (rest : Bytes) : isCharBoundary (String.utf8EncodeChar c ++ rest) i = false := by
  rw [← String.length_utf8EncodeChar] at h
  obtain ⟨b, tail, hc, -, htail⟩ := exists_lead c
  rw [hc] at h ⊢
  obtain ⟨i, rfl⟩ := Nat.exists_eq_succ_of_ne_zero hi
  have hinside : i < tail.length := Nat.lt_of_succ_lt_succ h
  have hbyte : (b :: tail ++ rest)[i + 1]? = some tail[i] := by
    rw [List.cons_append, List.getElem?_cons_succ, List.getElem?_append_left hinside,
      List.getElem?_eq_getElem hinside]
  have hlead := htail _ (List.getElem_mem hinside)
  rw [isCharBoundary_of_byte hbyte]
  simpa using hlead

theorem isCharBoundary_behind (bytes : Bytes) (s : List Char) (i : Nat) :
    isCharBoundary (bytes ++ encode s) (bytes.length + i) = isCharBoundary (encode s) i := by
  have hbyte : (bytes ++ encode s)[bytes.length + i]? = (encode s)[i]? := by
    rw [List.getElem?_append_right (Nat.le_add_right _ _), Nat.add_sub_cancel_left]
  cases i with
  | zero =>
      cases s with
      | nil => simp [isCharBoundary, encode]
      | cons c s =>
          obtain ⟨b, tail, hc, hlead, -⟩ := exists_lead c
          have hfirst : (encode (c :: s))[0]? = some b := by simp [encode, hc]
          rw [isCharBoundary_of_byte (hbyte.trans hfirst), isCharBoundary_of_byte hfirst, hlead,
            Bool.or_true, Bool.or_true]
  | succ i =>
      have hfront : (bytes.length + (i + 1) == 0) = false := beq_eq_false_iff_ne.mpr (by omega)
      rw [isCharBoundary, isCharBoundary, hbyte, hfront]
      cases (encode s)[i + 1]? with
      | some b => rfl
      | none =>
          rw [Bool.eq_iff_iff]
          simp

theorem isSome_front? (s : List Char) (i : Nat) :
    (front? i s).isSome = isCharBoundary (encode s) i := by
  induction s generalizing i with
  | nil => cases i <;> simp [front?, isCharBoundary, encode]
  | cons c s ih =>
      cases i with
      | zero => rfl
      | succ i =>
          have hcons : encode (c :: s) = String.utf8EncodeChar c ++ encode s := List.flatMap_cons
          rw [front?, hcons]
          split
          · next hfits =>
              have hbehind := isCharBoundary_behind (String.utf8EncodeChar c) s
                (i + 1 - c.utf8Size)
              rw [String.length_utf8EncodeChar, Nat.add_sub_cancel' hfits] at hbehind
              rw [Option.isSome_map, ih, hbehind]
          · next hinside =>
              rw [isCharBoundary_inside (Nat.succ_ne_zero i) (Nat.lt_of_not_le hinside)]
              rfl

theorem boundaryBack?_spec (bytes : Bytes) (i : Nat) : ∃ j, boundaryBack? bytes i = some j ∧
    j ≤ i ∧ isCharBoundary bytes j ∧ ∀ k, j < k → k ≤ i → ¬ isCharBoundary bytes k := by
  induction i with
  | zero => exact ⟨0, rfl, Nat.le_refl 0, rfl, fun k hlow hhigh => absurd hhigh (by omega)⟩
  | succ i ih =>
      rw [boundaryBack?]
      by_cases h : isCharBoundary bytes (i + 1)
      · exact ⟨i + 1, if_pos h, Nat.le_refl _, h, fun k hlow hhigh => absurd hhigh (by omega)⟩
      · obtain ⟨j, hj, hle, hboundary, hbetween⟩ := ih
        refine ⟨j, by rw [if_neg h, hj], Nat.le_succ_of_le hle, hboundary, fun k hlow hhigh => ?_⟩
        rcases Nat.lt_or_eq_of_le hhigh with hlt | rfl
        · exact hbetween k hlow (Nat.le_of_lt_succ hlt)
        · exact h

theorem isSome_cut? (limit : Nat) (s : List Char) : (cut? limit s).isSome := by
  unfold cut?
  simp only
  split
  · rfl
  · obtain ⟨i, hi, -, hboundary, -⟩ := boundaryBack?_spec (encode s) limit
    rw [← isSome_front?] at hboundary
    obtain ⟨front, hfront⟩ := Option.isSome_iff_exists.mp hboundary
    simp [hi, hfront]

def truncate (limit : Nat) (s : List Char) : List Char := (cut? limit s).get (isSome_cut? limit s)

end FunctionJar.Text
