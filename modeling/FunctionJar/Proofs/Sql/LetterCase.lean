import FunctionJar.Proofs.Sql.Acceptance
import FunctionJar.Proofs.Text

namespace FunctionJar

theorem Text.toUpper_toLower (c : Char) : c.toLower.toUpper = c.toUpper := by
  rcases toLower_cases c with hsame | ⟨⟨hlow, hhigh⟩, -⟩
  · rw [hsame]
  · have hletters : ∀ n < 26,
        (Char.ofNat (65 + n)).toLower.toUpper = (Char.ofNat (65 + n)).toUpper := by
      decide
    have hc : c = Char.ofNat (65 + (c.toNat - 65)) := by
      rw [Nat.add_sub_cancel' hlow, Char.ofNat_toNat]
    rw [hc]
    exact hletters _ (by omega)

theorem Text.upper_eq_of_lower_eq {a b : String} (h : lower a = lower b) : upper a = upper b := by
  have hmap := map_toLower_of_sameLetters (beq_iff_eq.mpr h)
  have hupper (s : String) :
      s.toList.map Char.toUpper = (s.toList.map Char.toLower).map Char.toUpper := by
    rw [List.map_map]
    exact List.map_congr_left fun c _ => (toUpper_toLower c).symm
  rw [upper, upper, hupper a, hmap, ← hupper b]

namespace Sql

def Token.folded : Token → Token
  | ident s => ident (Text.lower s)
  | t => t

/-- The names in a list of parameters, where a name is due: at the start and behind the comma after
a type. -/
def namesIn : List Token → List String
  | .ident name :: .ident _ :: .comma :: ts => name :: namesIn ts
  | .ident name :: _ => [name]
  | _ => []

def declaredNames : List Token → List String
  | .ident _ :: .leftParen :: ts => namesIn ts
  | _ => []

/-- The same tokens but for the letter case of identifiers that are not declared names. -/
structure Recased (ts us : List Token) : Prop where
  folded : ts.map Token.folded = us.map Token.folded
  names : declaredNames ts = declaredNames us

instance (ts us : List Token) : Decidable (Recased ts us) :=
  decidable_of_iff (ts.map Token.folded = us.map Token.folded ∧ declaredNames ts = declaredNames us)
    ⟨fun ⟨hfolded, hnames⟩ => ⟨hfolded, hnames⟩, fun ⟨hfolded, hnames⟩ => ⟨hfolded, hnames⟩⟩

theorem Recased.symm {ts us : List Token} (h : Recased ts us) : Recased us ts :=
  ⟨h.folded.symm, h.names.symm⟩

theorem Token.folded_eq_ident {t : Token} {s : String} :
    t.folded = ident s ↔ ∃ id, t = ident id ∧ Text.lower id = s := by
  cases t <;> simp [folded]

theorem Token.eq_of_folded_eq {t u : Token} (hu : ∀ s, u ≠ ident s) (h : t.folded = u.folded) :
    t = u := by
  cases u with
  | ident s => exact absurd rfl (hu s)
  | number | str | leftParen | rightParen | comma | op => cases t <;> simp_all [folded]

section

variable {t : Token} {id : String} {ts us vs : List Token}

theorem folded_cons (ht : ∀ s, t ≠ .ident s)
    (h : us.map Token.folded = (t :: ts).map Token.folded) :
    ∃ vs, us = t :: vs ∧ vs.map Token.folded = ts.map Token.folded := by
  obtain ⟨u, vs, rfl, hu, hvs⟩ := List.map_eq_cons_iff.mp h
  exact ⟨vs, by rw [Token.eq_of_folded_eq ht hu], hvs⟩

theorem folded_ident (h : us.map Token.folded = (.ident id :: ts).map Token.folded) :
    ∃ id' vs, us = .ident id' :: vs ∧ Text.lower id' = Text.lower id ∧
      vs.map Token.folded = ts.map Token.folded := by
  obtain ⟨u, vs, rfl, hu, hvs⟩ := List.map_eq_cons_iff.mp h
  obtain ⟨id', rfl, hletters⟩ := Token.folded_eq_ident.mp hu
  exact ⟨id', vs, rfl, hletters, hvs⟩

theorem folded_nil (h : us.map Token.folded = ([] : List Token).map Token.folded) : us = [] :=
  List.map_eq_nil_iff.mp h

theorem folded_append_cons (ht : ∀ s, t ≠ .ident s)
    (h : us.map Token.folded = (ts ++ t :: vs).map Token.folded) :
    ∃ xs ys, us = xs ++ t :: ys ∧ xs.map Token.folded = ts.map Token.folded ∧
      ys.map Token.folded = vs.map Token.folded := by
  rw [List.map_append] at h
  obtain ⟨xs, ys, rfl, hxs, hys⟩ := List.map_eq_append_iff.mp h
  obtain ⟨zs, rfl, hzs⟩ := folded_cons ht hys
  exact ⟨xs, zs, rfl, hxs, hzs⟩

end

section

variable {params ps : List Param} {returns : SqlType} {body : Expr} {ts us : List Token}

theorem SqlType.ofName?_eq {a b : String} (h : Text.lower a = Text.lower b) :
    ofName? a = ofName? b := by
  rw [ofName?, ofName?, Text.upper_eq_of_lower_eq h]

theorem sameLetters_eq {a b : String} (h : Text.lower a = Text.lower b) (s : String) :
    Text.sameLetters a s = Text.sameLetters b s ∧ Text.sameLetters s a = Text.sameLetters s b := by
  simp only [Text.sameLetters, h, and_self]

theorem Derives.recased {level : Level} (h : Derives params level ts body)
    (hfolded : us.map Token.folded = ts.map Token.folded) : Derives params level us body := by
  induction h generalizing us with
  | int hpoint hrange =>
      obtain ⟨vs, rfl, hvs⟩ := folded_cons (by simp) hfolded
      exact folded_nil hvs ▸ .int hpoint hrange
  | decimal hpoint =>
      obtain ⟨vs, rfl, hvs⟩ := folded_cons (by simp) hfolded
      exact folded_nil hvs ▸ .decimal hpoint
  | str s =>
      obtain ⟨vs, rfl, hvs⟩ := folded_cons (by simp) hfolded
      exact folded_nil hvs ▸ .str s
  | true htrue =>
      obtain ⟨id, vs, rfl, hid, hvs⟩ := folded_ident hfolded
      exact folded_nil hvs ▸ .true ((sameLetters_eq hid _).1 ▸ htrue)
  | false hfalse =>
      obtain ⟨id, vs, rfl, hid, hvs⟩ := folded_ident hfolded
      exact folded_nil hvs ▸ .false ((sameLetters_eq hid _).1 ▸ hfalse)
  | param htrue hfalse hfind =>
      obtain ⟨id, vs, rfl, hid, hvs⟩ := folded_ident hfolded
      refine folded_nil hvs ▸ .param ((sameLetters_eq hid _).1 ▸ htrue)
        ((sameLetters_eq hid _).1 ▸ hfalse) ?_
      rw [← hfind]
      exact congrArg (params.find? ·) (funext fun p => (sameLetters_eq hid p.name).2)
  | paren _ ih =>
      obtain ⟨vs, rfl, hvs⟩ := folded_cons (by simp) hfolded
      obtain ⟨xs, ys, rfl, hxs, hys⟩ := folded_append_cons (by simp) hvs
      exact folded_nil hys ▸ .paren (ih hxs)
  | atom _ ih => exact .atom (ih hfolded)
  | neg _ ih =>
      obtain ⟨vs, rfl, hvs⟩ := folded_cons (by simp) hfolded
      exact .neg (ih hvs)
  | unary _ ih => exact .unary (ih hfolded)
  | product ha _ _ ihl ihr =>
      obtain ⟨xs, ys, rfl, hxs, hys⟩ := folded_append_cons (by simp) hfolded
      exact .product ha (ihl hxs) (ihr hys)
  | term _ ih => exact .term (ih hfolded)
  | sum ha _ _ ihl ihr =>
      obtain ⟨xs, ys, rfl, hxs, hys⟩ := folded_append_cons (by simp) hfolded
      exact .sum ha (ihl hxs) (ihr hys)
  | concat _ _ ihl ihr =>
      obtain ⟨xs, ys, rfl, hxs, hys⟩ := folded_append_cons (by simp) hfolded
      exact .concat (ihl hxs) (ihr hys)

theorem ParamTokens.recased (h : ParamTokens ps ts)
    (hfolded : us.map Token.folded = ts.map Token.folded) {rest rest' : List Token}
    (hnames : namesIn (us ++ .rightParen :: rest) = namesIn (ts ++ .rightParen :: rest')) :
    ParamTokens ps us := by
  induction h generalizing us with
  | last htype =>
      obtain ⟨name, vs, rfl, -, hvs⟩ := folded_ident hfolded
      obtain ⟨id, xs, rfl, hid, hxs⟩ := folded_ident hvs
      obtain rfl := folded_nil hxs
      obtain rfl := List.head_eq_of_cons_eq hnames
      exact .last ((SqlType.ofName?_eq hid).trans htype)
  | more htype _ ih =>
      obtain ⟨name, vs, rfl, -, hvs⟩ := folded_ident hfolded
      obtain ⟨id, xs, rfl, hid, hxs⟩ := folded_ident hvs
      obtain ⟨ys, rfl, hys⟩ := folded_cons (by simp) hxs
      obtain ⟨rfl, hrest⟩ := List.cons.inj hnames
      exact .more ((SqlType.ofName?_eq hid).trans htype) (ih hys hrest)

theorem Header.recased {head head' rest rest' : List Token} (h : Header ps returns head)
    (hfolded : head'.map Token.folded = head.map Token.folded)
    (hnames : declaredNames (head' ++ rest') = declaredNames (head ++ rest)) :
    Header ps returns head' := by
  obtain ⟨hfunction, hparams, hreturns, htype, has⟩ := h
  obtain ⟨function, ts, rfl, hfunctionWord, hts⟩ := folded_ident hfolded
  obtain ⟨us, rfl, hus⟩ := folded_cons (by simp) hts
  obtain ⟨xs, ys, rfl, hxs, hys⟩ := folded_append_cons (by simp) hus
  obtain ⟨returnsWord, zs, rfl, hreturnsWord, hzs⟩ := folded_ident hys
  obtain ⟨type, zs, rfl, htypeWord, hzs⟩ := folded_ident hzs
  obtain ⟨as, zs, rfl, hasWord, hzs⟩ := folded_ident hzs
  obtain rfl := folded_nil hzs
  refine .intro ((sameLetters_eq hfunctionWord _).1 ▸ hfunction) ?_
    ((sameLetters_eq hreturnsWord _).1 ▸ hreturns) ((SqlType.ofName?_eq htypeWord).trans htype)
    ((sameLetters_eq hasWord _).1 ▸ has)
  rcases hparams with ⟨hps, rfl⟩ | hparams
  · exact .inl ⟨hps, folded_nil hxs⟩
  · simp only [List.cons_append, List.append_assoc, List.nil_append] at hnames
    exact .inr (hparams.recased hxs hnames)

theorem Declares.recased (h : Declares params returns body ts) (hrecased : Recased ts us) :
    Declares params returns body us := by
  obtain ⟨hheader, hnamed, hnonempty, hderives, htype, hreturns⟩ := h
  obtain ⟨hfolded, hnames⟩ := hrecased.symm
  rw [List.map_append] at hfolded
  obtain ⟨head, rest, rfl, hhead, hrest⟩ := List.map_eq_append_iff.mp hfolded
  refine .intro (hheader.recased hhead hnames) hnamed ?_ (hderives.recased hrest) htype hreturns
  rintro rfl
  exact hnonempty (List.map_eq_nil_iff.mp hrest.symm)

end

namespace Function

theorem parse_recased {text text' : String} {ts us : List Token} (hts : tokenize text = .ok ts)
    (hus : tokenize text' = .ok us) (h : Recased ts us) {f : Function} (hf : parse text = .ok f) :
    parse text' = .ok f := by
  obtain ⟨ts', htokens, hdeclares, hjava⟩ := parse_eq_ok_iff.mp hf
  obtain rfl := Except.ok.inj (hts.symm.trans htokens)
  exact parse_eq_ok_iff.mpr ⟨us, hus, hdeclares.recased h, hjava⟩

/-- Two texts whose tokens differ in letter case only, and not in names that are declared, are the
same function, or neither is one. -/
theorem parse_letterCase {text text' : String} {ts us : List Token}
    (hts : tokenize text = .ok ts) (hus : tokenize text' = .ok us) (h : Recased ts us) :
    (∃ f, parse text = .ok f ∧ parse text' = .ok f) ∨
      ∃ e e', parse text = .error e ∧ parse text' = .error e' := by
  cases hf : parse text with
  | ok f => exact .inl ⟨f, rfl, parse_recased hts hus h hf⟩
  | error e =>
      cases hf' : parse text' with
      | ok f => exact nomatch hf.symm.trans (parse_recased hus hts h.symm hf')
      | error e' => exact .inr ⟨e, e', rfl, rfl⟩

theorem parse_letterCase_mixed : ∃ ts us f,
    tokenize "function (aB Int) Returns Varchar as Ab || TRUE;" = .ok ts ∧
      tokenize "FUNCTION (aB INT) RETURNS VARCHAR AS aB || true" = .ok us ∧ Recased ts us ∧
        parse "function (aB Int) Returns Varchar as Ab || TRUE;" = .ok f ∧
          parse "FUNCTION (aB INT) RETURNS VARCHAR AS aB || true" = .ok f ∧
            f.javaText = "String.valueOf(aB) + String.valueOf(true)" := by
  have hts : tokenize "function (aB Int) Returns Varchar as Ab || TRUE;" =
      .ok [.ident "function", .leftParen, .ident "aB", .ident "Int", .rightParen, .ident "Returns",
        .ident "Varchar", .ident "as", .ident "Ab", .op .concat, .ident "TRUE"] := by
    apply ok_of_toOption
    decide +kernel
  have hus : tokenize "FUNCTION (aB INT) RETURNS VARCHAR AS aB || true" =
      .ok [.ident "FUNCTION", .leftParen, .ident "aB", .ident "INT", .rightParen, .ident "RETURNS",
        .ident "VARCHAR", .ident "AS", .ident "aB", .op .concat, .ident "true"] := by
    apply ok_of_toOption
    decide +kernel
  have hjava : (parse "FUNCTION (aB INT) RETURNS VARCHAR AS aB || true").toOption.map javaText =
      some "String.valueOf(aB) + String.valueOf(true)" := by
    decide +kernel
  rcases parse_letterCase hts hus (by decide +kernel) with ⟨f, hf, hf'⟩ | ⟨-, e, -, he⟩
  · rw [hf'] at hjava
    exact ⟨_, _, f, hts, hus, by decide +kernel, hf, hf', Option.some.inj hjava⟩
  · rw [he] at hjava
    cases hjava

end Function

end Sql

end FunctionJar
