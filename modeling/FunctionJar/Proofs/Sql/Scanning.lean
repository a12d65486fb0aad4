import FunctionJar.Proofs.Except
import FunctionJar.Proofs.Text
import FunctionJar.Sql.Token

namespace FunctionJar.Sql

namespace Mode

def run (m : Mode) : List Char → Except TokenFault (List Token × Mode)
  | [] => .ok ([], m)
  | c :: cs => do
    let (ts, m') ← m.step c
    let (us, n) ← m'.run cs
    return (ts ++ us, n)

theorem run_cons {m m' n : Mode} {c : Char} {cs : List Char} {ts us : List Token}
    (hstep : m.step c = .ok (ts, m')) (hrun : m'.run cs = .ok (us, n)) :
    m.run (c :: cs) = .ok (ts ++ us, n) := by
  simp only [run, hstep, ok_bind, hrun]
  rfl

theorem run_ok {m n : Mode} {c : Char} {cs : List Char} {vs : List Token}
    (h : m.run (c :: cs) = .ok (vs, n)) : ∃ ts us m', m.step c = .ok (ts, m') ∧
      m'.run cs = .ok (us, n) ∧ vs = ts ++ us := by
  rw [run] at h
  obtain ⟨⟨ts, m'⟩, hstep, h⟩ := bind_ok h
  obtain ⟨⟨us, n'⟩, hrun, h⟩ := bind_ok h
  obtain ⟨rfl, rfl⟩ := Prod.mk.inj (Except.ok.inj h)
  exact ⟨ts, us, m', hstep, hrun, rfl⟩

end Mode

open Mode

theorem tokensFrom_cons {m m' : Mode} {c : Char} {ts : List Token} (h : m.step c = .ok (ts, m'))
    (rest : List Char) : tokensFrom m (c :: rest) = (tokensFrom m' rest).map (ts ++ ·) := by
  rw [tokensFrom, h]

theorem tokensFrom_skip {m m' : Mode} {c : Char} (h : m.step c = .ok ([], m'))
    (rest : List Char) : tokensFrom m (c :: rest) = tokensFrom m' rest := by
  rw [tokensFrom_cons h]
  cases tokensFrom m' rest <;> rfl

theorem tokensFrom_cons_ok {m : Mode} {c : Char} {cs : List Char} {vs : List Token}
    (h : tokensFrom m (c :: cs) = .ok vs) : ∃ ts us m', m.step c = .ok (ts, m') ∧
      tokensFrom m' cs = .ok us ∧ vs = ts ++ us := by
  rw [tokensFrom] at h
  cases hstep : m.step c with
  | error f => simp [hstep] at h
  | ok out =>
      obtain ⟨ts, m'⟩ := out
      rw [hstep] at h
      obtain ⟨us, hrest, rfl⟩ := map_ok h
      exact ⟨ts, us, m', rfl, hrest, rfl⟩

theorem tokensFrom_append {m n : Mode} {cs : List Char} {ts : List Token}
    (h : m.run cs = .ok (ts, n)) (rest : List Char) :
    tokensFrom m (cs ++ rest) = (tokensFrom n rest).map (ts ++ ·) := by
  induction cs generalizing m ts with
  | nil =>
      obtain ⟨rfl, rfl⟩ := Prod.mk.inj (Except.ok.inj h)
      rw [List.nil_append]
      cases tokensFrom m rest <;> rfl
  | cons c cs ih =>
      obtain ⟨us, vs, m', hstep, hrun, rfl⟩ := run_ok h
      rw [List.cons_append, tokensFrom_cons hstep, ih hrun]
      cases tokensFrom n rest <;> simp [Except.map]

def Token.IsSign : Token → Prop
  | ident _ | number _ | str _ => False
  | _ => True

namespace Mode

/-- Neither a word nor a number is under way. -/
def Plain : Mode → Prop
  | word _ | number _ => False
  | _ => True

/-- What a character is where no token is under way. -/
inductive Starts (c : Char) : List Token → Mode → Prop
  | plain {m : Mode} (h : m.Plain) : Starts c [] m
  | sign {t : Token} (h : t.IsSign) : Starts c [t] between
  | digit (h : c.isDigit) : Starts c [] (number [c])
  | letter (h : isWordStart c) : Starts c [] (word [c])

/-- What has been read is a token that may end here. -/
inductive Whole : Mode → Token → Prop
  | word (read : List Char) : Whole (word read) (.ident (backwards read))
  | number {read : List Char} (h : numberToken read = .ok (.number (backwards read))) :
      Whole (number read) (.number (backwards read))
  | quote (read : List Char) : Whole (quote read) (.str (backwards read))

/-- What a character does to the token under way. -/
inductive Steps (c : Char) : Mode → List Token → Mode → Prop
  | start {ts : List Token} {m : Mode} (h : Starts c ts m) : Steps c between ts m
  | close {m n : Mode} {t : Token} {ts : List Token} (hm : Whole m t) (h : Starts c ts n) :
      Steps c m (t :: ts) n
  | letter {read : List Char} (h : isWordRest c) : Steps c (word read) [] (word (c :: read))
  | digit {read : List Char} (h : isNumberRest c) : Steps c (number read) [] (number (c :: read))
  | plain {m n : Mode} (hm : m.Plain) (hn : n.Plain) : Steps c m [] n
  | bar : Steps c bar [.op .concat] between

theorem starts_of_start {c : Char} {ts : List Token} {m : Mode} (h : start c = .ok (ts, m)) :
    Starts c ts m := by
  unfold start at h
  split at h
  · cases h
    exact .plain trivial
  · split at h
    case h_12 =>
      split at h
      · next hdigit =>
          cases h
          exact .digit hdigit
      · split at h
        · next hletter =>
            cases h
            exact .letter hletter
        · cases h
    all_goals
      cases h
      first | exact .sign trivial | exact .plain trivial

theorem steps_of_closed {m n : Mode} {t : Token} {c : Char} {ts : List Token} (hm : Whole m t)
    (h : closed t c = .ok (ts, n)) : Steps c m ts n := by
  obtain ⟨⟨us, m'⟩, hstart, hout⟩ := map_ok h
  obtain ⟨rfl, rfl⟩ := Prod.mk.inj hout
  exact .close hm (starts_of_start hstart)

theorem whole_of_numberToken {read : List Char} {t : Token} (h : numberToken read = .ok t) :
    Whole (number read) t := by
  have ht : t = .number (backwards read) := by
    unfold numberToken at h
    split at h
    · cases h
    · exact (Except.ok.inj h).symm
  subst ht
  exact .number h

theorem steps_of_step {m n : Mode} {c : Char} {ts : List Token} (h : m.step c = .ok (ts, n)) :
    Steps c m ts n := by
  cases m with
  | between => exact .start (starts_of_start h)
  | word read =>
      simp only [step] at h
      split at h
      · next hrest =>
          cases h
          exact .letter hrest
      · exact steps_of_closed (.word read) h
  | number read =>
      simp only [step] at h
      split at h
      · next hrest =>
          cases h
          exact .digit hrest
      · split at h
        · next t ht => exact steps_of_closed (whole_of_numberToken ht) h
        · cases h
  | string read =>
      simp only [step] at h
      split at h <;> cases h <;> exact .plain trivial trivial
  | quote read =>
      simp only [step] at h
      split at h
      · cases h
        exact .plain trivial trivial
      · exact steps_of_closed (.quote read) h
  | bar =>
      simp only [step] at h
      split at h
      · cases h
        exact .bar
      · cases h
  | ended =>
      simp only [step] at h
      split at h
      · cases h
        exact .plain trivial trivial
      · cases h

theorem finish_ok {m : Mode} {ts : List Token} (h : m.finish = .ok ts) :
    ts = [] ∨ ∃ t, ts = [t] ∧ Whole m t := by
  cases m with
  | between | ended => exact .inl (Except.ok.inj h).symm
  | word read => exact .inr ⟨_, (Except.ok.inj h).symm, .word read⟩
  | number read =>
      obtain ⟨t, ht, rfl⟩ := map_ok h
      exact .inr ⟨t, rfl, whole_of_numberToken ht⟩
  | string read | bar => cases h
  | quote read => exact .inr ⟨_, (Except.ok.inj h).symm, .quote read⟩

theorem Whole.ne_rightParen {m : Mode} {t : Token} (h : Whole m t) : t ≠ .rightParen := by
  cases h <;> simp

theorem Starts.rightParen {m : Mode} {c : Char} {before after : List Token}
    (h : Starts c (before ++ .rightParen :: after) m) : after = [] ∧ m = between := by
  generalize hts : before ++ Token.rightParen :: after = ts at h
  cases h with
  | plain | digit | letter => simp at hts
  | sign =>
      refine ⟨?_, rfl⟩
      rcases List.append_eq_singleton_iff.mp hts with ⟨-, hafter⟩ | ⟨-, hafter⟩
      · exact (List.cons.inj hafter).2
      · cases hafter

theorem Steps.rightParen {m n : Mode} {c : Char} {before after : List Token}
    (h : Steps c m (before ++ .rightParen :: after) n) : after = [] ∧ n = between := by
  generalize hts : before ++ Token.rightParen :: after = ts at h
  cases h with
  | start h =>
      subst hts
      exact h.rightParen
  | close hm h =>
      cases before with
      | nil => exact absurd (List.cons.inj hts).1.symm hm.ne_rightParen
      | cons t before =>
          obtain ⟨-, rfl⟩ := List.cons.inj hts
          exact h.rightParen
  | letter | digit | plain => simp at hts
  | bar => simp [List.append_eq_singleton_iff] at hts

theorem rightParen_not_mem_finish {m : Mode} {ts : List Token} (h : m.finish = .ok ts) :
    Token.rightParen ∉ ts := by
  rcases finish_ok h with rfl | ⟨t, rfl, ht⟩
  · simp
  · simpa using ht.ne_rightParen.symm

end Mode

theorem exists_run_of_rightParen {m : Mode} {cs : List Char} {before after : List Token}
    (h : tokensFrom m cs = .ok (before ++ .rightParen :: after)) :
    ∃ head tail, cs = head ++ tail ∧ m.run head = .ok (before ++ [.rightParen], .between) := by
  induction cs generalizing m before with
  | nil => exact absurd (by simp) (rightParen_not_mem_finish h)
  | cons c cs ih =>
      obtain ⟨ts, us, m', hstep, hrest, heq⟩ := tokensFrom_cons_ok h
      have later (ws : List Token) (hbefore : before = ts ++ ws)
          (hus : us = ws ++ .rightParen :: after) :
          ∃ head tail, c :: cs = head ++ tail ∧
            m.run head = .ok (before ++ [.rightParen], .between) := by
        rw [hus] at hrest
        obtain ⟨head, tail, rfl, hrun⟩ := ih hrest
        refine ⟨c :: head, tail, rfl, ?_⟩
        rw [run_cons hstep hrun, hbefore, List.append_assoc]
      rcases List.append_eq_append_iff.mp heq with ⟨ws, hts, hafter⟩ | ⟨ws, hbefore, hus⟩
      · -- the parenthesis is among the tokens that `c` completes, unless these stop before it
        cases ws with
        | nil => exact later [] (by simpa using hts.symm) hafter.symm
        | cons w ws =>
            obtain ⟨rfl, -⟩ := List.cons.inj hafter
            subst hts
            obtain ⟨rfl, rfl⟩ := (steps_of_step hstep).rightParen
            exact ⟨[c], cs, rfl, by rw [run_cons hstep rfl, List.append_nil]⟩
      · exact later ws hbefore hus

/-- What every mode keeps when a character is read, and what follows from it for the tokens. -/
structure Mode.Invariant (Q : Mode → Prop) (P : Token → Prop) : Prop where
  plain : ∀ {m}, m.Plain → Q m
  letter : ∀ {c}, isWordStart c → Q (.word [c])
  word : ∀ {read c}, Q (.word read) → isWordRest c → Q (.word (c :: read))
  digit : ∀ {c}, c.isDigit → Q (.number [c])
  number : ∀ {read c}, Q (.number read) → isNumberRest c → Q (.number (c :: read))
  whole : ∀ {m t}, Q m → Whole m t → P t
  sign : ∀ {t : Token}, t.IsSign → P t

namespace Mode.Invariant

variable {Q : Mode → Prop} {P : Token → Prop} {m n : Mode} {c : Char} {ts : List Token}

theorem starts (h : Invariant Q P) (hstarts : Starts c ts m) : Q m ∧ ∀ t ∈ ts, P t := by
  cases hstarts with
  | plain hm => exact ⟨h.plain hm, by simp⟩
  | sign ht => exact ⟨h.plain trivial, by simpa using h.sign ht⟩
  | digit hc => exact ⟨h.digit hc, by simp⟩
  | letter hc => exact ⟨h.letter hc, by simp⟩

theorem steps (h : Invariant Q P) (hm : Q m) (hsteps : Steps c m ts n) :
    Q n ∧ ∀ t ∈ ts, P t := by
  cases hsteps with
  | start hstarts => exact h.starts hstarts
  | close hwhole hstarts =>
      obtain ⟨hn, hts⟩ := h.starts hstarts
      exact ⟨hn, List.forall_mem_cons.mpr ⟨h.whole hm hwhole, hts⟩⟩
  | letter hc => exact ⟨h.word hm hc, by simp⟩
  | digit hc => exact ⟨h.number hm hc, by simp⟩
  | plain _ hn => exact ⟨h.plain hn, by simp⟩
  | bar => exact ⟨h.plain trivial, by simpa using h.sign (t := .op .concat) trivial⟩

theorem tokensFrom (h : Invariant Q P) {cs : List Char} (hm : Q m)
    (htokens : tokensFrom m cs = .ok ts) : ∀ t ∈ ts, P t := by
  induction cs generalizing m ts with
  | nil =>
      rcases finish_ok htokens with rfl | ⟨t, rfl, hwhole⟩
      · simp
      · simpa using h.whole hm hwhole
  | cons c cs ih =>
      obtain ⟨us, vs, m', hstep, hrest, rfl⟩ := tokensFrom_cons_ok htokens
      obtain ⟨hm', hus⟩ := h.steps hm (steps_of_step hstep)
      intro t ht
      rcases List.mem_append.mp ht with ht | ht
      · exact hus t ht
      · exact ih hm' hrest t ht

theorem tokenize (h : Invariant Q P) {text : String} (htokens : tokenize text = .ok ts) :
    ∀ t ∈ ts, P t :=
  h.tokensFrom (h.plain (m := .between) trivial) htokens

end Mode.Invariant

def IsWord (cs : List Char) : Prop :=
  ∃ c rest, cs = c :: rest ∧ isWordStart c ∧ ∀ d ∈ rest, isWordRest d

theorem isWord_concat {cs : List Char} {c : Char} (h : IsWord cs) (hc : isWordRest c) :
    IsWord (cs ++ [c]) := by
  obtain ⟨d, rest, rfl, hd, hrest⟩ := h
  refine ⟨d, rest ++ [c], rfl, hd, fun e he => ?_⟩
  rcases List.mem_append.mp he with he | he
  · exact hrest e he
  · rw [List.mem_singleton.mp he]
    exact hc

def Token.Worded : Token → Prop
  | ident s => IsWord s.toList
  | _ => True

/-- The identifier under way, if there is one, could end where it stands. -/
def Mode.Worded : Mode → Prop
  | word read => IsWord read.reverse
  | _ => True

theorem invariant_worded : Mode.Invariant Mode.Worded Token.Worded where
  plain {m} hm := by cases m <;> first | exact hm.elim | trivial
  letter {c} hc := ⟨c, [], rfl, hc, by simp⟩
  word {read c} hread hc := by simpa [Mode.Worded] using isWord_concat hread hc
  digit _ := trivial
  number _ _ := trivial
  whole hm hwhole := by
    cases hwhole with
    | word read => simpa [Token.Worded, backwards, Mode.Worded] using hm
    | number | quote => trivial
  sign {t} ht := by cases t <;> first | exact ht.elim | trivial

theorem isWord_of_tokenize {text name : String} {ts : List Token} (h : tokenize text = .ok ts)
    (hname : .ident name ∈ ts) : IsWord name.toList :=
  invariant_worded.tokenize h _ hname

theorem isWordStart_iff {c : Char} : isWordStart c ↔
    (65 ≤ c.toNat ∧ c.toNat ≤ 90) ∨ (97 ≤ c.toNat ∧ c.toNat ≤ 122) ∨ c.toNat = 95 := by
  have hbar : c = '_' ↔ c.toNat = 95 := Char.toNat_inj.symm
  have halpha : c.isAlpha = (c.isUpper || c.isLower) := rfl
  rw [isWordStart, halpha, Bool.or_eq_true, Bool.or_eq_true, Text.isUpper_iff,
    Text.isLower_iff, beq_iff_eq, hbar, or_assoc]

theorem isWordRest_iff {c : Char} : isWordRest c ↔ isWordStart c ∨ c.isDigit := by
  simp only [isWordRest, isWordStart, Char.isAlphanum, Bool.or_eq_true]
  grind

theorem isWordStart_toLower (c : Char) : isWordStart c.toLower = isWordStart c := by
  rw [Bool.eq_iff_iff, isWordStart_iff, isWordStart_iff]
  rcases Text.toLower_cases c with h | h
  · rw [h]
  · omega

theorem isWordRest_toLower (c : Char) : isWordRest c.toLower = isWordRest c := by
  rw [Bool.eq_iff_iff, isWordRest_iff, isWordRest_iff, isWordStart_toLower, Text.isDigit_iff,
    Text.isDigit_iff]
  rcases Text.toLower_cases c with h | h
  · rw [h]
  · rw [isWordStart_iff]
    omega

theorem isWord_of_sameLetters {s t : String} (h : Text.sameLetters s t) (ht : IsWord t.toList) :
    IsWord s.toList := by
  obtain ⟨c, cs, hlist, hc, hcs⟩ := ht
  have hmap := Text.map_toLower_of_sameLetters h
  rw [hlist, List.map_cons] at hmap
  obtain ⟨d, ds, hs, hd, hds⟩ := List.map_eq_cons_iff.mp hmap
  refine ⟨d, ds, hs, ?_, fun e he => ?_⟩
  · rw [← isWordStart_toLower, hd, isWordStart_toLower, hc]
  · obtain ⟨c', hc', heq⟩ := List.mem_map.mp (hds ▸ List.mem_map_of_mem he)
    rw [← isWordRest_toLower, ← heq, isWordRest_toLower, hcs c' hc']

theorem start_word {c : Char} (h : isWordStart c) : start c = .ok ([], .word [c]) := by
  have hrange := isWordStart_iff.mp h
  have hblank : ¬ Text.isBlank c := by
    simp only [Text.isBlank, Bool.or_eq_true, Bool.and_eq_true, decide_eq_true_eq, beq_iff_eq]
    omega
  have hdigit : ¬ c.isDigit := by
    rw [Text.isDigit_iff]
    omega
  unfold start
  rw [if_neg hblank]
  split
  case h_12 => rw [if_neg hdigit, if_pos h]
  all_goals exact absurd h (by decide)

theorem tokensFrom_closed {m : Mode} {t : Token} {rest : List Char} (hfinish : m.finish = .ok [t])
    (hstep : ∀ c ∈ rest.head?, m.step c = closed t c) :
    tokensFrom m rest = (tokensFrom .between rest).map (t :: ·) := by
  cases rest with
  | nil => exact hfinish
  | cons c rest =>
      rw [tokensFrom, tokensFrom, hstep c rfl, closed, step]
      cases start c with
      | error f => rfl
      | ok out =>
          obtain ⟨ts, m'⟩ := out
          cases htokens : tokensFrom m' rest <;> simp [Except.map, htokens]

theorem backwards_reverse (cs : List Char) : backwards cs.reverse = String.ofList cs := by
  rw [backwards, List.reverse_reverse]

theorem tokensFrom_word_append {cs : List Char} (h : ∀ c ∈ cs, isWordRest c)
    (read rest : List Char) :
    tokensFrom (.word read) (cs ++ rest) = tokensFrom (.word (cs.reverse ++ read)) rest := by
  induction cs generalizing read with
  | nil => rfl
  | cons c cs ih =>
      have hstep : (Mode.word read).step c = .ok ([], .word (c :: read)) := if_pos (h c (by simp))
      rw [List.cons_append, tokensFrom_skip hstep, ih fun d hd => h d (by simp [hd])]
      simp

theorem tokensFrom_ident {s : String} {rest : List Char} (h : IsWord s.toList)
    (hrest : ∀ c ∈ rest.head?, ¬ isWordRest c) :
    tokensFrom .between (s.toList ++ rest) = (tokensFrom .between rest).map (.ident s :: ·) := by
  obtain ⟨c, cs, hs, hc, hcs⟩ := h
  have hstep : Mode.between.step c = .ok ([], .word [c]) := start_word hc
  have hclosed := tokensFrom_closed (m := .word (c :: cs).reverse) rfl fun d hd =>
    if_neg (hrest d hd)
  rw [hs, List.cons_append, tokensFrom_skip hstep, tokensFrom_word_append hcs,
    ← List.reverse_cons, hclosed, backwards_reverse, ← hs, String.ofList_toList]

theorem tokensFrom_of_isWord {s : String} (h : IsWord s.toList) :
    tokensFrom .between s.toList = .ok [.ident s] := by
  have hnone : ∀ c ∈ ([] : List Char).head?, ¬ isWordRest c := by simp
  have hword := tokensFrom_ident h hnone
  rw [List.append_nil] at hword
  exact hword

end FunctionJar.Sql
