import FunctionJar.Proofs.Sql.Grammar

namespace FunctionJar.Sql

/-- The tokens of parameters, one at least, with commas between them. -/
inductive ParamTokens : List Param → List Token → Prop
  | last {name id type} (h : SqlType.ofName? id = some type) :
      ParamTokens [⟨name, type⟩] [.ident name, .ident id]
  | more {name id type ps ts} (h : SqlType.ofName? id = some type) (hrest : ParamTokens ps ts) :
      ParamTokens (⟨name, type⟩ :: ps) (.ident name :: .ident id :: .comma :: ts)

/-- Names of parameters are identifiers, none reserved, and no two differ in letter case only. -/
structure Named (ps : List Param) : Prop where
  usable : ∀ p ∈ ps, ClassName.fault? p.name = none
  distinct : ps.Pairwise fun p q => Text.sameLetters p.name q.name = false

inductive Header (ps : List Param) (returns : SqlType) : List Token → Prop
  | intro {function returnsWord id as ts} (hfunction : Text.sameLetters function "FUNCTION")
      (hparams : ps = [] ∧ ts = [] ∨ ParamTokens ps ts)
      (hreturns : Text.sameLetters returnsWord "RETURNS") (htype : SqlType.ofName? id = some returns)
      (has : Text.sameLetters as "AS") :
      Header ps returns (.ident function :: .leftParen :: ts ++
        [.rightParen, .ident returnsWord, .ident id, .ident as])

namespace Function

theorem keyword_ok {word : String} {ts rest : List Token} (h : keyword word ts = .ok rest) :
    ∃ id, ts = .ident id :: rest ∧ Text.sameLetters id word := by
  unfold keyword at h
  split at h
  · next id us =>
      split at h
      · next hid => exact ⟨id, by rw [Except.ok.inj h], hid⟩
      · simp at h
  · simp at h

theorem ident_ok {what name : String} {ts rest : List Token}
    (h : ident what ts = .ok (name, rest)) : ts = .ident name :: rest := by
  unfold ident at h
  split at h
  · obtain ⟨rfl, rfl⟩ := Prod.mk.inj (Except.ok.inj h)
    rfl
  · simp at h

theorem typeNamed_ok {name : String} {t : SqlType} (h : typeNamed name = .ok t) :
    SqlType.ofName? name = some t := by
  unfold typeNamed at h
  split at h
  · next ht => rw [ht, Except.ok.inj h]
  · simp at h

theorem param_ok {seen : List Param} {ts rest : List Token} {p : Param}
    (h : param seen ts = .ok (p, rest)) : ∃ id, ts = .ident p.name :: .ident id :: rest ∧
      SqlType.ofName? id = some p.type ∧ ClassName.fault? p.name = none ∧
        ∀ q ∈ seen, Text.sameLetters q.name p.name = false := by
  unfold param at h
  obtain ⟨⟨name, us⟩, hname, hrest⟩ := bind_ok h
  clear h
  obtain rfl := ident_ok hname
  simp only at hrest
  split at hrest
  · exact absurd hrest throw_ne_ok
  · next hfault =>
      split at hrest
      · exact absurd hrest throw_ne_ok
      · next hseen =>
          obtain ⟨⟨id, vs⟩, hid, hrest⟩ := bind_ok hrest
          obtain ⟨t, ht, hrest⟩ := bind_ok hrest
          obtain ⟨rfl, rfl⟩ := Prod.mk.inj (Except.ok.inj hrest)
          refine ⟨id, by rw [ident_ok hid], typeNamed_ok ht, by simpa using hfault, ?_⟩
          simpa using hseen

theorem named_concat {ps : List Param} {p : Param} (hs : Named ps)
    (hfault : ClassName.fault? p.name = none)
    (hseen : ∀ q ∈ ps, Text.sameLetters q.name p.name = false) : Named (ps ++ [p]) where
  usable := by
    intro q hq
    rcases List.mem_append.mp hq with hq | hq
    · exact hs.usable q hq
    · rw [List.mem_singleton.mp hq]
      exact hfault
  distinct := by
    rw [List.pairwise_append]
    refine ⟨hs.distinct, List.pairwise_singleton _ _, fun q hq q' hq' => ?_⟩
    rw [List.mem_singleton.mp hq']
    exact hseen q hq

theorem paramList_ok {n : Nat} {seen params : List Param} {ts rest : List Token}
    (hs : Named seen) (h : paramList n seen ts = .ok (params, rest)) :
    Named params ∧ ∃ ps us, params = seen ++ ps ∧ ts = us ++ .rightParen :: rest ∧
      ParamTokens ps us := by
  induction n generalizing seen ts with
  | zero => simp [paramList] at h
  | succ n ih =>
      rw [paramList] at h
      obtain ⟨⟨p, us⟩, hparam, hrest⟩ := bind_ok h
      obtain ⟨id, rfl, htype, hfault, hseen⟩ := param_ok hparam
      have hs' := named_concat hs hfault hseen
      simp only at hrest
      split at hrest
      · next vs =>
          obtain ⟨hnamed, ps, ws, hparams, rfl, htokens⟩ := ih hs' hrest
          exact ⟨hnamed, p :: ps, .ident p.name :: .ident id :: .comma :: ws,
            by simpa using hparams, rfl, .more htype htokens⟩
      · next vs =>
          obtain ⟨rfl, rfl⟩ := Prod.mk.inj (Except.ok.inj hrest)
          exact ⟨hs', [p], [.ident p.name, .ident id], rfl, rfl, .last htype⟩
      · exact absurd hrest throw_ne_ok

theorem named_nil : Named [] := ⟨by simp, .nil⟩

theorem paramsOf_ok {params : List Param} {ts rest : List Token}
    (h : paramsOf ts = .ok (params, rest)) : Named params ∧ ∃ us,
      ts = .leftParen :: us ++ .rightParen :: rest ∧
        (params = [] ∧ us = [] ∨ ParamTokens params us) := by
  unfold paramsOf at h
  split at h
  · obtain ⟨rfl, rfl⟩ := Prod.mk.inj (Except.ok.inj h)
    exact ⟨named_nil, [], rfl, .inl ⟨rfl, rfl⟩⟩
  · obtain ⟨hnamed, ps, us, rfl, rfl, htokens⟩ := paramList_ok named_nil h
    exact ⟨hnamed, us, rfl, .inr htokens⟩
  · simp at h

theorem bodyOf_ok {params : List Param} {ts : List Token} {e : Expr}
    (h : bodyOf params ts = .ok e) : ts ≠ [] ∧ Expr.parse params ts = .ok (e, []) := by
  unfold bodyOf at h
  simp only at h
  split at h
  · exact absurd h throw_ne_ok
  · next hne =>
      refine ⟨hne, ?_⟩
      obtain ⟨out, hout, hrest⟩ := bind_ok h
      split at hrest
      · obtain rfl := Except.ok.inj hrest
        exact ok_of_mapError hout
      · exact absurd hrest throw_ne_ok

structure Accepted (f : Function) (head body : List Token) : Prop where
  named : Named f.params
  header : Header f.params f.returns head
  nonempty : body ≠ []
  parsed : Expr.parse f.params body = .ok (f.body, [])
  converted : f.body.convert f.returns = .ok f.java

theorem ofTokens_ok {f : Function} {ts : List Token} (h : ofTokens ts = .ok f) :
    ∃ head body, ts = head ++ body ∧ Accepted f head body := by
  unfold ofTokens at h
  obtain ⟨us, hfunction, h⟩ := bind_ok h
  obtain ⟨⟨params, vs⟩, hparams, h⟩ := bind_ok h
  obtain ⟨ws, hreturns, h⟩ := bind_ok h
  obtain ⟨⟨id, xs⟩, hid, h⟩ := bind_ok h
  obtain ⟨returns, htype, h⟩ := bind_ok h
  obtain ⟨body, has, h⟩ := bind_ok h
  obtain ⟨e, hbody, h⟩ := bind_ok h
  obtain ⟨java, hjava, h⟩ := bind_ok h
  obtain rfl := Except.ok.inj h
  clear h
  obtain ⟨function, hts, hfunctionWord⟩ := keyword_ok hfunction
  obtain ⟨hnamed, ys, hus, htokens⟩ := paramsOf_ok hparams
  obtain ⟨returnsWord, hvs, hreturnsWord⟩ := keyword_ok hreturns
  obtain ⟨as, hxs, hasWord⟩ := keyword_ok has
  obtain ⟨hne, hparse⟩ := bodyOf_ok hbody
  refine ⟨_, body, ?_, hnamed,
    .intro hfunctionWord htokens hreturnsWord (typeNamed_ok htype) hasWord, hne, hparse, hjava⟩
  rw [hts, hus, hvs, ident_ok hid, hxs]
  simp

theorem parse_ok {f : Function} {text : String} (h : parse text = .ok f) :
    ∃ head body, tokenize text = .ok (head ++ body) ∧ Accepted f head body := by
  unfold parse at h
  obtain ⟨ts, htokens, h⟩ := bind_ok h
  obtain ⟨head, body, rfl, haccepted⟩ := ofTokens_ok h
  exact ⟨head, body, ok_of_mapError htokens, haccepted⟩

end Function

theorem ParamTokens.mem_name {ps : List Param} {ts : List Token} (h : ParamTokens ps ts) :
    ∀ p ∈ ps, .ident p.name ∈ ts := by
  induction h with
  | last _ => simp
  | more _ _ ih =>
      intro p hp
      rcases List.mem_cons.mp hp with rfl | hp
      · exact List.mem_cons_self
      · simp [ih p hp]

end FunctionJar.Sql
