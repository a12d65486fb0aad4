import FunctionJar.Proofs.Sql.Literal

namespace FunctionJar.Sql

open Mode

/-- Digits, and at most one point that is neither the first nor the last of them. -/
structure IsNumeral (cs : List Char) : Prop where
  nonempty : cs ≠ []
  digits : ∀ c ∈ cs, c.isDigit ∨ c = '.'
  points : cs.count '.' ≤ 1
  first : cs.head? ≠ some '.'
  last : cs.getLast? ≠ some '.'

/-- A word or a number has to look like one. A string stands in quotes, whatever is in it. -/
def Token.Writable : Token → Prop
  | ident s => IsWord s.toList
  | number s => IsNumeral s.toList
  | _ => True

def Blank (cs : List Char) : Prop := ∀ c ∈ cs, Text.isBlank c

inductive Written : List Token → List Char → Prop
  | nil : Written [] []
  | cons {t : Token} {ts : List Token} {gap cs : List Char} (hgap : Blank gap)
      (hapart : ts = [] ∨ gap ≠ []) (hrest : Written ts cs) :
      Written (t :: ts) (t.text ++ gap ++ cs)

def IsEnd (cs : List Char) : Prop := cs = [] ∨ ∃ blanks, Blank blanks ∧ cs = ';' :: blanks

/-- The characters that end a word or a number without being read as part of anything. -/
def Separates (c : Char) : Prop := Text.isBlank c ∨ c = ';'

theorem toNat_of_isBlank {c : Char} (h : Text.isBlank c) : c.toNat ≤ 32 ∨ 133 ≤ c.toNat := by
  simp only [Text.isBlank, Bool.or_eq_true, Bool.and_eq_true, decide_eq_true_eq, beq_iff_eq] at h
  omega

theorem Separates.not_wordRest {c : Char} (h : Separates c) : ¬ isWordRest c := by
  rcases h with h | rfl
  · have hcode := toNat_of_isBlank h
    rw [isWordRest_iff, isWordStart_iff, Text.isDigit_iff]
    omega
  · decide

theorem Separates.ne {c d : Char} (h : Separates c) (hd : ¬ Separates d) : c ≠ d := by
  rintro rfl
  exact hd h

theorem not_separates_quote : ¬ Separates '\'' := by
  rintro (h | h) <;> revert h <;> decide

theorem not_separates_point : ¬ Separates '.' := by
  rintro (h | h) <;> revert h <;> decide

theorem Separates.not_numberRest {c : Char} (h : Separates c) : ¬ isNumberRest c := by
  intro hrest
  rw [isNumberRest, Bool.or_eq_true, beq_iff_eq] at hrest
  rcases hrest with hdigit | hpoint
  · exact h.not_wordRest (isWordRest_iff.mpr (.inr hdigit))
  · exact h.ne not_separates_point hpoint

theorem start_digit {c : Char} (h : c.isDigit) : start c = .ok ([], .number [c]) := by
  have hrange := Text.isDigit_iff.mp h
  have hblank : ¬ Text.isBlank c := by
    intro hblank
    have hcode := toNat_of_isBlank hblank
    omega
  unfold start
  rw [if_neg hblank]
  split
  case h_12 => rw [if_pos h]
  all_goals exact absurd h (by decide)

theorem tokensFrom_number_append {cs : List Char} (h : ∀ c ∈ cs, isNumberRest c)
    (read rest : List Char) :
    tokensFrom (.number read) (cs ++ rest) = tokensFrom (.number (cs.reverse ++ read)) rest := by
  induction cs generalizing read with
  | nil => rfl
  | cons c cs ih =>
      have hstep : (Mode.number read).step c = .ok ([], .number (c :: read)) :=
        if_pos (h c (by simp))
      rw [List.cons_append, tokensFrom_skip hstep, ih fun d hd => h d (by simp [hd])]
      simp

theorem IsNumeral.numberToken_eq {cs : List Char} (h : IsNumeral cs) :
    numberToken cs.reverse = .ok (.number (String.ofList cs)) := by
  have hfault : ¬ (1 < cs.reverse.count '.' ∨ cs.reverse.head? = some '.') := by
    rw [List.count_reverse, List.head?_reverse]
    exact not_or.mpr ⟨Nat.not_lt.mpr h.points, h.last⟩
  rw [numberToken, if_neg hfault, backwards_reverse]

theorem run_sign {t : Token} (h : t.IsSign) : Mode.between.run t.text = .ok ([t], .between) := by
  cases t with
  | ident | number | str => exact h.elim
  | leftParen | rightParen | comma => rfl
  | op o => cases o <;> rfl

theorem tokensFrom_sign {t : Token} (h : t.IsSign) (rest : List Char) :
    tokensFrom .between (t.text ++ rest) = (tokensFrom .between rest).map (t :: ·) :=
  tokensFrom_append (run_sign h) rest

theorem tokensFrom_numeral {s : String} {rest : List Char} (h : IsNumeral s.toList)
    (hrest : ∀ c ∈ rest.head?, ¬ isNumberRest c) :
    tokensFrom .between (s.toList ++ rest) = (tokensFrom .between rest).map (.number s :: ·) := by
  have htoken := h.numberToken_eq
  obtain ⟨c, cs, hs⟩ := List.exists_cons_of_ne_nil h.nonempty
  rw [String.ofList_toList, hs] at htoken
  have hc : c.isDigit := (h.digits c (by simp [hs])).resolve_right (by simpa [hs] using h.first)
  have hcs : ∀ d ∈ cs, isNumberRest d := by
    intro d hd
    simpa [isNumberRest] using h.digits d (by simp [hs, hd])
  have hstep : Mode.between.step c = .ok ([], .number [c]) := start_digit hc
  have hfinish : (Mode.number (c :: cs).reverse).finish = .ok [.number s] := by
    rw [finish, htoken]
    rfl
  have hclosed := tokensFrom_closed hfinish fun d hd => by
    rw [step, if_neg (hrest d hd), htoken]
  rw [hs, List.cons_append, tokensFrom_skip hstep, tokensFrom_number_append hcs,
    ← List.reverse_cons, hclosed]

theorem tokensFrom_text {t : Token} (h : t.Writable) {rest : List Char}
    (hrest : ∀ c ∈ rest.head?, Separates c) :
    tokensFrom .between (t.text ++ rest) = (tokensFrom .between rest).map (t :: ·) := by
  cases t with
  | ident s => exact tokensFrom_ident h fun c hc => (hrest c hc).not_wordRest
  | number s => exact tokensFrom_numeral h fun c hc => (hrest c hc).not_numberRest
  | str s => exact tokensFrom_str s fun c hc => (hrest c hc).ne not_separates_quote
  | leftParen | rightParen | comma | op => exact tokensFrom_sign (by trivial) rest

theorem tokensFrom_blanks {gap : List Char} (h : Blank gap) (rest : List Char) :
    tokensFrom .between (gap ++ rest) = tokensFrom .between rest := by
  induction gap with
  | nil => rfl
  | cons c gap ih =>
      have hstep : Mode.between.step c = .ok ([], .between) := if_pos (h c (by simp))
      rw [List.cons_append, tokensFrom_skip hstep, ih fun d hd => h d (by simp [hd])]

theorem tokensFrom_ended {blanks : List Char} (h : Blank blanks) :
    tokensFrom .ended blanks = .ok [] := by
  induction blanks with
  | nil => rfl
  | cons c blanks ih =>
      have hstep : Mode.ended.step c = .ok ([], .ended) := if_pos (h c (by simp))
      rw [tokensFrom_skip hstep, ih fun d hd => h d (by simp [hd])]

theorem IsEnd.tokensFrom {tail : List Char} (h : IsEnd tail) :
    tokensFrom .between tail = .ok [] := by
  rcases h with rfl | ⟨blanks, hblanks, rfl⟩
  · rfl
  · have hstep : Mode.between.step ';' = .ok ([], .ended) := rfl
    rw [tokensFrom_skip hstep, tokensFrom_ended hblanks]

theorem IsEnd.separates {tail : List Char} (h : IsEnd tail) : ∀ c ∈ tail.head?, Separates c := by
  rcases h with rfl | ⟨blanks, -, rfl⟩
  · simp
  · simp [Separates]

theorem separates_append {gap rest : List Char} (hgap : Blank gap)
    (hrest : gap = [] → ∀ c ∈ rest.head?, Separates c) :
    ∀ c ∈ (gap ++ rest).head?, Separates c := by
  cases gap with
  | nil => exact hrest rfl
  | cons d gap =>
      rintro c ⟨⟩
      exact .inl (hgap d (by simp))

/-- The tokens of a list that is written out are that list, whatever stands between them and with or
without a semicolon at the end. -/
theorem tokenize_written {ts : List Token} {cs tail : List Char} (h : Written ts cs)
    (hts : ∀ t ∈ ts, t.Writable) (htail : IsEnd tail) :
    tokenize (String.ofList (cs ++ tail)) = .ok ts := by
  rw [tokenize, String.toList_ofList]
  induction h with
  | nil => exact htail.tokensFrom
  | @cons t ts gap cs hgap hapart hrest ih =>
      have hends : ∀ c ∈ (gap ++ (cs ++ tail)).head?, Separates c := by
        refine separates_append hgap fun hnone => ?_
        -- without blanks the token is the last one
        obtain rfl := hapart.resolve_right (not_not_intro hnone)
        cases hrest
        exact htail.separates
      rw [List.append_assoc, List.append_assoc, tokensFrom_text (hts t (by simp)) hends,
        tokensFrom_blanks hgap, ih fun u hu => hts u (by simp [hu])]
      rfl

def quotingTokens : List Token :=
  [.ident "x", .op .concat, .str "it's; || (1", .op .sub, .number "007.50"]

def quotingText : String := "x || 'it''s; || (1'\t-\n\n 007.50"

theorem isNumeral_quoting : IsNumeral "007.50".toList where
  nonempty := by decide
  digits := by simp
  points := by decide
  first := by decide
  last := by decide

theorem tokenize_written_quoting :
    Written quotingTokens quotingText.toList ∧ (∀ t ∈ quotingTokens, t.Writable) ∧
      IsEnd "; ".toList ∧
      tokenize (String.ofList (quotingText.toList ++ "; ".toList)) = .ok quotingTokens := by
  have hspace : Blank [' '] := by simp [Blank, Text.isBlank]
  have htab : Blank ['\t'] := by simp [Blank, Text.isBlank]
  have hlines : Blank ['\n', '\n', ' '] := by simp [Blank, Text.isBlank]
  have hnone : Blank [] := by simp [Blank]
  have hwritten : Written quotingTokens quotingText.toList :=
    .cons hspace (.inr (by simp)) (.cons hspace (.inr (by simp)) (.cons htab (.inr (by simp))
      (.cons hlines (.inr (by simp)) (.cons hnone (.inl rfl) .nil))))
  have hwritable : ∀ t ∈ quotingTokens, t.Writable := by
    simp only [quotingTokens, List.forall_mem_cons]
    have hword : IsWord "x".toList := ⟨'x', [], rfl, by decide, by simp⟩
    exact ⟨hword, trivial, trivial, trivial, isNumeral_quoting, by simp⟩
  have hend : IsEnd "; ".toList := .inr ⟨[' '], hspace, rfl⟩
  exact ⟨hwritten, hwritable, hend, tokenize_written hwritten hwritable hend⟩

end FunctionJar.Sql
