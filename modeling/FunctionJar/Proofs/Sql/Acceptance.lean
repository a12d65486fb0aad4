import FunctionJar.Proofs.Sql.Header
import FunctionJar.Proofs.Sql.Typing

namespace FunctionJar.Sql

/-- A result may be returned as what it is, as a string, and a number as another number. -/
def SqlType.Returnable (t returns : SqlType) : Prop :=
  t = returns ∨ returns = .string ∨ t.Numeric ∧ returns.Numeric

inductive Declares (params : List Param) (returns : SqlType) (body : Expr) : List Token → Prop
  | intro {head rest t} (hheader : Header params returns head) (hnamed : Named params)
      (hnonempty : rest ≠ []) (hderives : Derives params .sum rest body) (htype : body.HasType t)
      (hreturns : t.Returnable returns) : Declares params returns body (head ++ rest)

theorem Expr.exists_convert_iff {e : Expr} {returns : SqlType} :
    (∃ java, e.convert returns = .ok java) ↔ e.type.Returnable returns := by
  unfold convert SqlType.Returnable SqlType.Numeric
  by_cases hsame : e.type = returns
  · simp [hsame]
  · rw [if_neg hsame]
    by_cases hstring : returns = .string
    · simp [hstring]
    · rw [if_neg hstring]
      cases hsource : e.type.prim? <;> cases htarget : returns.prim? <;> simp [hsame, hstring]

namespace Function

variable {params seen ps : List Param} {p : Param} {id name word : String} {t : SqlType}
  {ts us rest : List Token}

theorem keyword_of_sameLetters (h : Text.sameLetters id word) (rest : List Token) :
    keyword word (.ident id :: rest) = .ok rest :=
  if_pos h

theorem typeNamed_of_ofName? (h : SqlType.ofName? name = some t) : typeNamed name = .ok t := by
  rw [typeNamed, h]

theorem param_of_named (htype : SqlType.ofName? id = some p.type)
    (hnamed : Named (seen ++ p :: ps)) (rest : List Token) :
    param seen (.ident p.name :: .ident id :: rest) = .ok (p, rest) := by
  have hfault : (ClassName.fault? p.name).isSome = false := by
    rw [hnamed.usable p (by simp)]
    rfl
  have hseen : (seen.any fun q => Text.sameLetters q.name p.name) = false := by
    rw [List.any_eq_false]
    intro q hq
    rw [(List.pairwise_append.mp hnamed.distinct).2.2 q hq p List.mem_cons_self]
    exact Bool.false_ne_true
  simp only [param, ident, ok_bind, hfault, hseen, typeNamed_of_ofName? htype]
  rfl

theorem paramList_of_tokens (h : ParamTokens ps us) (hnamed : Named (seen ++ ps)) {n : Nat}
    (hn : us.length < n) (rest : List Token) :
    paramList n seen (us ++ .rightParen :: rest) = .ok (seen ++ ps, rest) := by
  induction h generalizing seen n with
  | last htype =>
      obtain ⟨m, rfl⟩ : ∃ m, n = m + 1 := ⟨n - 1, by omega⟩
      rw [paramList]
      exact congrArg (· >>= _) (param_of_named htype hnamed (.rightParen :: rest))
  | @more name id type ps us htype _ ih =>
      obtain ⟨m, rfl⟩ : ∃ m, n = m + 1 := ⟨n - 1, by omega⟩
      have hseen : Named (seen ++ [⟨name, type⟩] ++ ps) := by simpa using hnamed
      have hrest := ih hseen (Nat.lt_of_succ_lt (Nat.lt_of_succ_lt (Nat.lt_of_succ_lt_succ hn)))
      rw [List.append_assoc] at hrest
      rw [paramList]
      exact (congrArg (· >>= _) (param_of_named htype hnamed _)).trans hrest

theorem paramsOf_of_tokens (hnamed : Named params)
    (h : params = [] ∧ us = [] ∨ ParamTokens params us) (rest : List Token) :
    paramsOf (.leftParen :: us ++ .rightParen :: rest) = .ok (params, rest) := by
  rcases h with ⟨rfl, rfl⟩ | h
  · rfl
  · have hnone : Named ([] ++ params) := hnamed
    have hfuel : us.length < (us ++ .rightParen :: rest).length + 1 := by
      rw [List.length_append]
      omega
    have hlist := paramList_of_tokens h hnone hfuel rest
    cases h with
    | last | more => exact hlist

theorem bodyOf_eq_ok_iff {e : Expr} : bodyOf params ts = .ok e ↔
    ts ≠ [] ∧ Derives params .sum ts e ∧ ∃ t, e.HasType t := by
  rw [← Expr.parse_eq_ok_iff]
  refine ⟨bodyOf_ok, fun ⟨hnonempty, hparse⟩ => ?_⟩
  simp only [bodyOf, hnonempty, hparse]
  rfl

theorem ofTokens_of_header {returns : SqlType} {head : List Token}
    (hheader : Header params returns head) (hnamed : Named params) (rest : List Token) :
    ofTokens (head ++ rest) = do
      let body ← bodyOf params rest
      let java ← body.convert returns
      return ⟨params, returns, body, java⟩ := by
  obtain ⟨hfunction, hparams, hreturns, hreturnType, has⟩ := hheader
  have hlist := paramsOf_of_tokens hnamed hparams
  simp only [List.cons_append, List.nil_append, List.append_assoc] at hlist ⊢
  simp only [ofTokens, ok_bind, ident, keyword_of_sameLetters hfunction, hlist,
    keyword_of_sameLetters hreturns, typeNamed_of_ofName? hreturnType, keyword_of_sameLetters has]

theorem ofTokens_of_declares {f : Function} (h : Declares f.params f.returns f.body ts)
    (hjava : f.body.convert f.returns = .ok f.java) : ofTokens ts = .ok f := by
  obtain ⟨hheader, hnamed, hnonempty, hderives, htype, -⟩ := h
  have hbody := bodyOf_eq_ok_iff.mpr ⟨hnonempty, hderives, _, htype⟩
  simp only [ofTokens_of_header hheader hnamed, hbody, ok_bind, hjava]
  rfl

theorem declares_of_accepted {f : Function} {head body : List Token} (h : Accepted f head body) :
    Declares f.params f.returns f.body (head ++ body) := by
  obtain ⟨hderives, t, htype⟩ := Expr.parse_eq_ok_iff.mp h.parsed
  have hreturns := Expr.exists_convert_iff.mp ⟨f.java, h.converted⟩
  rw [htype.type_eq] at hreturns
  exact .intro h.header h.named h.nonempty hderives htype hreturns

end Function

theorem Declares.exists_java {params : List Param} {returns : SqlType} {body : Expr}
    {ts : List Token} (h : Declares params returns body ts) :
    ∃ java, body.convert returns = .ok java := by
  obtain ⟨-, -, -, -, htype, hreturns⟩ := h
  exact Expr.exists_convert_iff.mpr (htype.type_eq.symm ▸ hreturns)

namespace Function

theorem parse_eq_ok_iff {f : Function} {text : String} : parse text = .ok f ↔ ∃ ts,
    tokenize text = .ok ts ∧ Declares f.params f.returns f.body ts ∧
      f.body.convert f.returns = .ok f.java := by
  constructor
  · intro h
    obtain ⟨head, body, htokens, haccepted⟩ := parse_ok h
    exact ⟨head ++ body, htokens, declares_of_accepted haccepted, haccepted.converted⟩
  · rintro ⟨ts, htokens, hdeclares, hjava⟩
    rw [parse, htokens]
    exact ofTokens_of_declares hdeclares hjava

theorem exists_parse_iff {params : List Param} {returns : SqlType} {body : Expr} {text : String} :
    (∃ java, parse text = .ok ⟨params, returns, body, java⟩) ↔
      ∃ ts, tokenize text = .ok ts ∧ Declares params returns body ts := by
  constructor
  · rintro ⟨java, h⟩
    obtain ⟨ts, htokens, hdeclares, -⟩ := parse_eq_ok_iff.mp h
    exact ⟨ts, htokens, hdeclares⟩
  · rintro ⟨ts, htokens, hdeclares⟩
    obtain ⟨java, hjava⟩ := hdeclares.exists_java
    exact ⟨java, parse_eq_ok_iff.mpr ⟨ts, htokens, hdeclares, hjava⟩⟩

/-- A text is accepted when its tokens declare a function, and then its parameters, type and body
are the ones they declare. -/
theorem accepts_iff_declares (text : String) :
    ((∃ f, parse text = .ok f) ↔
      ∃ ts params returns body, tokenize text = .ok ts ∧ Declares params returns body ts) ∧
    ∀ params returns body, (∃ java, parse text = .ok ⟨params, returns, body, java⟩) ↔
      ∃ ts, tokenize text = .ok ts ∧ Declares params returns body ts := by
  refine ⟨⟨?_, ?_⟩, fun _ _ _ => exists_parse_iff⟩
  · rintro ⟨⟨params, returns, body, java⟩, h⟩
    obtain ⟨ts, hts⟩ := exists_parse_iff.mp ⟨java, h⟩
    exact ⟨ts, params, returns, body, hts⟩
  · rintro ⟨ts, params, returns, body, hts⟩
    obtain ⟨java, h⟩ := exists_parse_iff.mpr ⟨ts, hts⟩
    exact ⟨_, h⟩

end Function

end FunctionJar.Sql
