import FunctionJar.Text.Utf8
import Mathlib.Tactic.IntervalCases

namespace FunctionJar.Text

variable {n : Nat} {low high : UInt8}

theorem leadByte_of_two (hlow : 0xC2 ≤ n) (hhigh : n ≤ 0xDF) :
    leadByte (UInt8.ofNat n) = some (0x80, 0xBF, 1) := by
  interval_cases n <;> rfl

theorem leadByte_of_three (hlow : 0xE0 ≤ n) (hhigh : n ≤ 0xEF) : leadByte (UInt8.ofNat n) =
    some (if n = 0xE0 then 0xA0 else 0x80, if n = 0xED then 0x9F else 0xBF, 2) := by
  interval_cases n <;> rfl

theorem leadByte_of_four (hlow : 0xF0 ≤ n) (hhigh : n ≤ 0xF4) : leadByte (UInt8.ofNat n) =
    some (if n = 0xF0 then 0x90 else 0x80, if n = 0xF4 then 0x8F else 0xBF, 3) := by
  interval_cases n <;> rfl

/-- A byte that holds six bits of a character. -/
def tailByte (n : Nat) : UInt8 := UInt8.ofNat (n % 64 + 128)

theorem toNat_tailByte (n : Nat) : (tailByte n).toNat = n % 64 + 128 := by
  rw [tailByte, UInt8.toNat_ofNat']
  omega

theorem tailBytes_tailByte (hlow : low.toNat ≤ n % 64 + 128) (hhigh : n % 64 + 128 ≤ high.toNat)
    (code count : Nat) (rest : Bytes) : tailBytes low high code (count + 1) (tailByte n :: rest) =
      ((tailBytes 0x80 0xBF (code * 64 + n % 64) count rest).1,
        (tailBytes 0x80 0xBF (code * 64 + n % 64) count rest).2 + 1) := by
  have hwithin : (low ≤ tailByte n && tailByte n ≤ high) = true := by
    simp [UInt8.le_iff_toNat_le, toNat_tailByte, hlow, hhigh]
  rw [tailBytes, if_pos hwithin, toNat_tailByte, Nat.add_sub_cancel]

theorem tailBytes_next (code count n : Nat) (rest : Bytes) :
    tailBytes 0x80 0xBF code (count + 1) (tailByte n :: rest) =
      ((tailBytes 0x80 0xBF (code * 64 + n % 64) count rest).1,
        (tailBytes 0x80 0xBF (code * 64 + n % 64) count rest).2 + 1) :=
  tailBytes_tailByte (by simp) (by simp; omega) code count rest

theorem decodeChar_of_lead {b : UInt8} {count : Nat} (h : leadByte b = some (low, high, count))
    (hlead : 0x80 ≤ b.toNat) (rest : Bytes) : decodeChar b rest =
      ((tailBytes low high (b.toNat % Nat.pow 2 (6 - count)) count rest).1.map Char.ofNat,
        (tailBytes low high (b.toNat % Nat.pow 2 (6 - count)) count rest).2) := by
  have hmany : ¬ b < 0x80 := by
    simpa [UInt8.lt_iff_toNat_lt] using hlead
  rw [decodeChar, if_neg hmany, h]

variable {v : Nat} (rest : Bytes)

theorem decodeChar_one (h : v ≤ 0x7F) :
    decodeChar (UInt8.ofNat v) rest = (some (Char.ofNat v), 0) := by
  have hbyte : (UInt8.ofNat v).toNat = v := by
    rw [UInt8.toNat_ofNat']
    omega
  have hsmall : UInt8.ofNat v < 0x80 := by
    rw [UInt8.lt_iff_toNat_lt, hbyte]
    exact Nat.lt_succ_of_le h
  rw [decodeChar, if_pos hsmall, hbyte]

theorem decodeChar_two (hlow : 0x7F < v) (hhigh : v ≤ 0x7FF) :
    decodeChar (UInt8.ofNat (v / 64 % 32 + 192)) (tailByte v :: rest) =
      (some (Char.ofNat v), 1) := by
  have hlead : (UInt8.ofNat (v / 64 % 32 + 192)).toNat = v / 64 % 32 + 192 := by
    rw [UInt8.toNat_ofNat']
    omega
  have hcode : (v / 64 % 32 + 192) % 32 * 64 + v % 64 = v := by omega
  rw [decodeChar_of_lead (leadByte_of_two (by omega) (by omega)) (by omega), hlead, tailBytes_next,
    tailBytes]
  exact congrArg (fun n => (some (Char.ofNat n), 1)) hcode

theorem decodeChar_three (hlow : 0x7FF < v) (hhigh : v ≤ 0xFFFF)
    (hvalid : v < 0xD800 ∨ 0xDFFF < v) :
    decodeChar (UInt8.ofNat (v / 4096 % 16 + 224)) (tailByte (v / 64) :: tailByte v :: rest) =
      (some (Char.ofNat v), 2) := by
  have hlead : (UInt8.ofNat (v / 4096 % 16 + 224)).toNat = v / 4096 % 16 + 224 := by
    rw [UInt8.toNat_ofNat']
    omega
  have hcode : ((v / 4096 % 16 + 224) % 16 * 64 + v / 64 % 64) * 64 + v % 64 = v := by omega
  rw [decodeChar_of_lead (leadByte_of_three (by omega) (by omega)) (by omega), hlead,
    tailBytes_tailByte (by split <;> simp; omega) (by split <;> (simp; omega))]
  rw [tailBytes_next, tailBytes]
  exact congrArg (fun n => (some (Char.ofNat n), 2)) hcode

theorem decodeChar_four (hlow : 0xFFFF < v) (hvalid : v < 0x110000) :
    decodeChar (UInt8.ofNat (v / 262144 % 8 + 240))
        (tailByte (v / 4096) :: tailByte (v / 64) :: tailByte v :: rest) =
      (some (Char.ofNat v), 3) := by
  have hlead : (UInt8.ofNat (v / 262144 % 8 + 240)).toNat = v / 262144 % 8 + 240 := by
    rw [UInt8.toNat_ofNat']
    omega
  have hcode : (((v / 262144 % 8 + 240) % 8 * 64 + v / 4096 % 64) * 64 + v / 64 % 64) * 64 +
      v % 64 = v := by omega
  rw [decodeChar_of_lead (leadByte_of_four (by omega) (by omega)) (by omega), hlead,
    tailBytes_tailByte (by split <;> simp; omega) (by split <;> (simp; omega))]
  rw [tailBytes_next, tailBytes_next, tailBytes]
  exact congrArg (fun n => (some (Char.ofNat n), 3)) hcode

theorem exists_encodeChar (c : Char) : ∃ b tail, String.utf8EncodeChar c = b :: tail ∧
    ∀ rest, decodeChar b (tail ++ rest) = (some c, tail.length) := by
  have hvalid : c.val.toNat < 0xD800 ∨ 0xDFFF < c.val.toNat ∧ c.val.toNat < 0x110000 := c.valid
  have hcode : Char.ofNat c.val.toNat = c := Char.ofNat_toNat c
  unfold String.utf8EncodeChar
  simp only
  generalize c.val.toNat = v at hvalid hcode
  subst hcode
  split
  · next hone => exact ⟨_, _, rfl, fun rest => decodeChar_one rest hone⟩
  · split
    · next htwo => exact ⟨_, _, rfl, fun rest => decodeChar_two rest (by omega) htwo⟩
    · split
      · next hthree =>
          exact ⟨_, _, rfl, fun rest => decodeChar_three rest (by omega) hthree (by omega)⟩
      · exact ⟨_, _, rfl, fun rest => decodeChar_four rest (by omega) (by omega)⟩

theorem decodeOnto_skip (done : List (Option Char)) (front rest : Bytes) :
    decodeOnto done front.length (front ++ rest) = decodeOnto done 0 rest := by
  induction front with
  | nil => rfl
  | cons b front ih => exact ih

theorem decodeOnto_utf8 (done : List (Option Char)) (cs : List Char) :
    decodeOnto done 0 (cs.flatMap String.utf8EncodeChar) = done.reverse ++ cs.map some := by
  induction cs generalizing done with
  | nil => simp [decodeOnto]
  | cons c cs ih =>
      obtain ⟨b, tail, hencode, hdecode⟩ := exists_encodeChar c
      rw [List.flatMap_cons, hencode, List.cons_append, decodeOnto, hdecode]
      simp only
      rw [decodeOnto_skip, ih]
      simp

theorem decode_utf8 (s : String) : decode (utf8 s) = s.toList.map some := by
  rw [decode, utf8, decodeOnto_utf8]
  simp

theorem decode?_utf8 (s : String) : decode? (utf8 s) = some s := by
  rw [decode?, decode_utf8]
  simp

end FunctionJar.Text
