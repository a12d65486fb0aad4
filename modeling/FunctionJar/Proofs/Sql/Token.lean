import FunctionJar.Proofs.Java.Token
import FunctionJar.Proofs.Sql.Scanning

namespace FunctionJar.Sql

def Token.Fits : Token → Prop
  | ident s => ClassName.isIdentifier s.toList
  | number s => ('.' ∉ s.toList ∧ ∀ c ∈ s.toList, c.isDigit) ∨ Java.IsDecimal s.toList
  | _ => True

namespace Mode

/-- The token under way is a beginning of one that fits. -/
def Fits : Mode → Prop
  | word read => ClassName.isIdentifier read.reverse
  | number read => (∃ c ∈ read.getLast?, c.isDigit) ∧ ∀ c ∈ read, isNumberRest c
  | _ => True

theorem isIdentStart_of_isWordStart {c : Char} (h : isWordStart c) : ClassName.isIdentStart c := by
  rw [ClassName.isIdentStart, Bool.or_eq_true]
  exact .inl h

theorem isIdentRest_of_isWordRest {c : Char} (h : isWordRest c) : ClassName.isIdentRest c := by
  rw [ClassName.isIdentRest, Bool.or_eq_true]
  exact .inl h

theorem isIdentifier_concat {cs : List Char} {c : Char} (h : ClassName.isIdentifier cs)
    (hc : ClassName.isIdentRest c) : ClassName.isIdentifier (cs ++ [c]) := by
  cases cs with
  | nil => simp [ClassName.isIdentifier] at h
  | cons d ds => simp_all [ClassName.isIdentifier]

theorem isDecimal_of_mem {digits : List Char} (hpoint : '.' ∈ digits)
    (hhead : ∃ c ∈ digits.head?, c.isDigit) (hall : ∀ c ∈ digits, isNumberRest c)
    (hcount : digits.count '.' ≤ 1) (hlast : digits.getLast? ≠ some '.') :
    Java.IsDecimal digits := by
  obtain ⟨whole, part, rfl, hwhole⟩ := List.eq_append_cons_of_mem hpoint
  have hpart : '.' ∉ part := by
    rw [List.count_append, List.count_cons_self] at hcount
    exact List.count_eq_zero.mp (by omega)
  have hdigit : ∀ c ∈ whole ++ '.' :: part, c ≠ '.' → c.isDigit := by
    intro c hc hne
    simpa [isNumberRest, hne] using hall c hc
  refine ⟨whole, part, rfl, ?_, ?_, fun c hc => ?_, fun c hc => ?_⟩
  · rintro rfl
    simp at hhead
  · rintro rfl
    simp at hlast
  · exact hdigit c (by simp [hc]) (ne_of_mem_of_not_mem hc hwhole)
  · exact hdigit c (by simp [hc]) (ne_of_mem_of_not_mem hc hpart)

theorem fits_numberToken {read : List Char} {t : Token} (hm : (number read).Fits)
    (h : numberToken read = .ok t) : t.Fits := by
  unfold numberToken at h
  split at h
  · cases h
  · next hfault =>
      obtain rfl := Except.ok.inj h
      obtain ⟨hcount, hlast⟩ := not_or.mp hfault
      obtain ⟨hfirst, hall⟩ := hm
      simp only [Token.Fits, backwards, String.toList_ofList]
      by_cases hpoint : '.' ∈ read
      · refine .inr (isDecimal_of_mem (by simpa using hpoint) (by simpa using hfirst)
          (by simpa using hall) ?_ (by simpa using hlast))
        rw [List.count_reverse]
        omega
      · refine .inl ⟨by simpa using hpoint, fun c hc => ?_⟩
        have hc' := List.mem_reverse.mp hc
        have hne : c ≠ '.' := ne_of_mem_of_not_mem hc' hpoint
        simpa [isNumberRest, hne] using hall c hc'

theorem fits_number_cons {read : List Char} {c : Char} (h : (number read).Fits)
    (hc : isNumberRest c) : (number (c :: read)).Fits := by
  obtain ⟨⟨d, hd, hdigit⟩, hall⟩ := h
  refine ⟨⟨d, ?_, hdigit⟩, by simpa [hc] using hall⟩
  rw [Option.mem_def] at hd ⊢
  rw [List.getLast?_cons, hd]
  rfl

theorem invariant_fits : Invariant Fits Token.Fits where
  plain {m} hm := by cases m <;> first | exact hm.elim | trivial
  letter hc := by simp [Fits, ClassName.isIdentifier, isIdentStart_of_isWordStart hc]
  word hread hc := by
    simpa [Fits] using isIdentifier_concat hread (isIdentRest_of_isWordRest hc)
  digit hc := by simp [Fits, isNumberRest, hc]
  number hread hc := fits_number_cons hread hc
  whole hm hwhole := by
    cases hwhole with
    | word read => simpa [Token.Fits, backwards, Fits] using hm
    | number h => exact fits_numberToken hm h
    | quote => trivial
  sign {t} ht := by cases t <;> first | exact ht.elim | trivial

end Mode

theorem fits_tokenize {text : String} {ts : List Token} (h : tokenize text = .ok ts) :
    ∀ t ∈ ts, t.Fits :=
  Mode.invariant_fits.tokenize h

end FunctionJar.Sql
