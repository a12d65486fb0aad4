import FunctionJar.Proofs.Sql.Acceptance
import FunctionJar.Proofs.Sql.Scanning

namespace FunctionJar.Sql

def Opens (params : List Param) (head : String) : Prop :=
  ∃ function us, Text.sameLetters function "FUNCTION" ∧
    (params = [] ∧ us = [] ∨ ParamTokens params us) ∧
    Mode.between.run head.toList =
      .ok (.ident function :: .leftParen :: us ++ [.rightParen], .between)

def answer (returns : SqlType) (word : String) : String :=
  " RETURNS " ++ returns.name ++ " AS " ++ word

def IsTruthValue (s : String) : Prop := Text.sameLetters s "true" ∨ Text.sameLetters s "false"

namespace Function

variable {params : List Param} {p : Param} {s : String} {text : String} {f : Function}

theorem exists_opens (h : parse text = .ok f) :
    ∃ head rest, text = head ++ rest ∧ Opens f.params head := by
  obtain ⟨before, body, htokens, haccepted⟩ := parse_ok h
  cases haccepted.header with
  | @intro function returnsWord id as us hfunction hparams =>
      have hcut : tokensFrom .between text.toList =
          .ok ((.ident function :: .leftParen :: us) ++ .rightParen ::
            (.ident returnsWord :: .ident id :: .ident as :: body)) := by
        rw [← tokenize, htokens]
        simp
      obtain ⟨head, rest, htext, hrun⟩ := exists_run_of_rightParen hcut
      refine ⟨String.ofList head, String.ofList rest, ?_, function, us, hfunction, hparams, ?_⟩
      · rw [← String.ofList_append, ← htext, String.ofList_toList]
      · rw [String.toList_ofList, hrun]

theorem isWord_of_opens {head : String} (h : Opens params head) (hp : p ∈ params) :
    IsWord p.name.toList := by
  obtain ⟨function, us, -, hparams, hrun⟩ := h
  have htokens : tokenize head = .ok (.ident function :: .leftParen :: us ++ [.rightParen]) := by
    have hall := tokensFrom_append hrun []
    rw [List.append_nil] at hall
    rw [tokenize, hall]
    simp [tokensFrom, Mode.finish, Except.map]
  rcases hparams with ⟨rfl, -⟩ | hparams
  · simp at hp
  · exact isWord_of_tokenize htokens (by simp [hparams.mem_name p hp])

theorem run_answer (returns : SqlType) :
    Mode.between.run (" RETURNS " ++ returns.name ++ " AS ").toList =
      .ok ([.ident "RETURNS", .ident returns.name, .ident "AS"], .between) := by
  apply ok_of_toOption
  cases returns <;> decide +kernel

theorem ofName?_name (t : SqlType) : SqlType.ofName? t.name = some t := by
  cases t <;> decide +kernel

theorem bodyOf_ident (params : List Param) (s : String) :
    bodyOf params [.ident s] = (Expr.ofIdent params s).mapError Fault.body := by
  cases h : Expr.ofIdent params s <;>
    simp [bodyOf, Expr.parse, Expr.fuelFor, Expr.expr, Expr.term, Expr.unary, Expr.primary,
      Expr.products, Expr.sums, h, bind, Except.bind, pure, Except.pure, mapError_ok,
      mapError_error]

theorem parse_answer {head : String} (hnamed : Named params) (hopens : Opens params head)
    (returns : SqlType) (hs : IsWord s.toList) :
    parse (head ++ answer returns s) = do
      let body ← (Expr.ofIdent params s).mapError Fault.body
      let java ← body.convert returns
      return ⟨params, returns, body, java⟩ := by
  obtain ⟨function, us, hfunction, hparams, hrun⟩ := hopens
  have hheader : Header params returns (Token.ident function :: Token.leftParen :: us ++
      [Token.rightParen, Token.ident "RETURNS", Token.ident returns.name, Token.ident "AS"]) :=
    .intro hfunction hparams (by decide) (ofName?_name returns) (by decide)
  have htokens : tokenize (head ++ answer returns s) =
      .ok ((Token.ident function :: Token.leftParen :: us ++
        [Token.rightParen, Token.ident "RETURNS", Token.ident returns.name, Token.ident "AS"]) ++
          [Token.ident s]) := by
    rw [tokenize, answer, String.toList_append, tokensFrom_append hrun, String.toList_append,
      tokensFrom_append (run_answer returns), tokensFrom_of_isWord hs]
    simp [Except.map]
  rw [parse, htokens, ← bodyOf_ident]
  exact ofTokens_of_header hheader hnamed [.ident s]

theorem ofIdent_of_mem (hnamed : Named params) (hp : p ∈ params) (hs : Text.sameLetters s p.name)
    (htruth : ¬ IsTruthValue s) : Expr.ofIdent params s = .ok (.param p) := by
  obtain ⟨before, after, rfl⟩ := List.append_of_mem hp
  obtain ⟨htrue, hfalse⟩ := not_or.mp htruth
  have hlower : Text.lower s = Text.lower p.name := beq_iff_eq.mp hs
  have hbefore : ∀ q ∈ before, ¬ Text.sameLetters q.name s := by
    intro q hq
    have hdistinct := (List.pairwise_append.mp hnamed.distinct).2.2 q hq p List.mem_cons_self
    rw [Text.sameLetters] at hdistinct ⊢
    rw [hlower, hdistinct]
    exact Bool.false_ne_true
  have hself : Text.sameLetters p.name s := beq_iff_eq.mpr hlower.symm
  have hfind : (before ++ p :: after).find? (fun q => Text.sameLetters q.name s) = some p := by
    rw [List.find?_append, List.find?_eq_none.mpr hbefore, Option.none_or]
    exact List.find?_cons_of_pos (p := fun q : Param => Text.sameLetters q.name s) hself
  rw [Expr.ofIdent, if_neg htrue, if_neg hfalse, hfind]

theorem ofIdent_of_isTruthValue (params : List Param) (h : IsTruthValue s) :
    ∃ b, Expr.ofIdent params s = .ok (.bool b) := by
  unfold Expr.ofIdent
  by_cases htrue : Text.sameLetters s "true"
  · exact ⟨true, if_pos htrue⟩
  · rw [if_neg htrue]
    exact ⟨false, if_pos (h.resolve_left htrue)⟩

theorem name_ne_boolText (hnamed : Named params) (hp : p ∈ params) (b : Bool) :
    Java.boolText b ≠ p.name := by
  intro hname
  have husable := hnamed.usable p hp
  rw [← hname] at husable
  cases b <;> revert husable <;> decide

/-- In a list of parameters that is accepted each one can be the body, in any letter case, unless
it is a truth value there. -/
theorem parameter_answers_iff {text : String} {f : Function} (h : parse text = .ok f) :
    ∃ head rest, text = head ++ rest ∧ Opens f.params head ∧
      ∀ p ∈ f.params, ∀ s, Text.sameLetters s p.name →
        ((∃ g, parse (head ++ answer p.type s) = .ok g ∧ g.params = f.params ∧
            g.returns = p.type ∧ g.body.type = p.type ∧ g.javaText = p.name) ↔
          ¬ IsTruthValue s) := by
  obtain ⟨head, rest, htext, hopens⟩ := exists_opens h
  obtain ⟨_, _, _, haccepted⟩ := parse_ok h
  have hnamed := haccepted.named
  refine ⟨head, rest, htext, hopens, fun p hp s hs => ?_⟩
  rw [parse_answer hnamed hopens p.type (isWord_of_sameLetters hs (isWord_of_opens hopens hp))]
  constructor
  · rintro ⟨g, hg, -, -, htype, hjava⟩ htruth
    obtain ⟨b, hb⟩ := ofIdent_of_isTruthValue f.params htruth
    rw [hb] at hg
    obtain ⟨java, hconvert, hg⟩ := bind_ok (ok_bind _ _ ▸ hg)
    obtain rfl := Except.ok.inj hg
    -- the value is returned as it stands, and so is its text
    obtain rfl := Except.ok.inj ((if_pos htype).symm.trans hconvert)
    refine name_ne_boolText hnamed hp b (Eq.trans ?_ hjava)
    simp [javaText, Expr.lower, Java.Expr.text]
  · intro htruth
    rw [ofIdent_of_mem hnamed hp hs htruth]
    refine ⟨⟨f.params, p.type, .param p, .name p.name⟩, ?_, rfl, rfl, rfl, ?_⟩
    · have hconvert : (Expr.param p).convert p.type = .ok (.name p.name) := if_pos rfl
      simp only [mapError_ok, ok_bind, hconvert]
      rfl
    · rw [javaText, Java.Expr.text, String.ofList_toList]

theorem parameter_answers_iff_two : ∃ f head rest,
    parse "FUNCTION (True INT, b INT) RETURNS INT AS b" = .ok f ∧
      "FUNCTION (True INT, b INT) RETURNS INT AS b" = head ++ rest ∧ ⟨"b", .int⟩ ∈ f.params ∧
        (¬ IsTruthValue "B") ∧
          ∃ g, parse (head ++ answer .int "B") = .ok g ∧ g.javaText = "b" := by
  have h : parse "FUNCTION (True INT, b INT) RETURNS INT AS b" =
      .ok ⟨[⟨"True", .int⟩, ⟨"b", .int⟩], .int, .param ⟨"b", .int⟩, .name "b"⟩ := by
    apply ok_of_toOption
    decide +kernel
  have hb : ¬ IsTruthValue "B" := by
    simp only [IsTruthValue]
    decide
  obtain ⟨head, rest, htext, -, hall⟩ := parameter_answers_iff h
  obtain ⟨g, hg, -, -, -, hjava⟩ := (hall ⟨"b", .int⟩ (by simp) "B" (by decide)).mpr hb
  exact ⟨_, head, rest, h, htext, by simp, hb, g, hg, hjava⟩

/-- A parameter may have the name `True`, and then no body can name it. -/
theorem truthValue_hides_parameter :
    (∃ f, parse "FUNCTION (True INT) RETURNS INT AS 1" = .ok f ∧ f.params = [⟨"True", .int⟩]) ∧
      (∀ f, parse "FUNCTION (True INT) RETURNS INT AS True" ≠ .ok f) ∧
      ∃ f, parse "FUNCTION (True BOOLEAN) RETURNS BOOLEAN AS True" = .ok f ∧
        f.params = [⟨"True", .boolean⟩] ∧ f.javaText = "true" := by
  refine ⟨⟨⟨[⟨"True", .int⟩], .int, .int 1, .int 1⟩, ?_, rfl⟩, fun f h => ?_,
    ⟨[⟨"True", .boolean⟩], .boolean, .bool true, .bool true⟩, ?_, rfl, ?_⟩
  · apply ok_of_toOption
    decide +kernel
  · have hnone : (parse "FUNCTION (True INT) RETURNS INT AS True").toOption = none := by
      decide +kernel
    rw [h] at hnone
    cases hnone
  · apply ok_of_toOption
    decide +kernel
  · decide +kernel

end Function

end FunctionJar.Sql
