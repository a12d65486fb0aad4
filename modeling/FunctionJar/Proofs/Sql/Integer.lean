import FunctionJar.Proofs.Java.Integer
import FunctionJar.Proofs.Sql.Acceptance
import FunctionJar.Proofs.Sql.Lowering
import FunctionJar.Proofs.Sql.Rendering
import Mathlib.Data.List.Forall2

namespace FunctionJar.Sql

def integers (ts : List Token) : List String :=
  ts.filterMap fun
    | .number digits => if '.' ∈ digits.toList then none else some digits
    | _ => none

def Expr.integers : Expr → List (Nat × SqlType)
  | int v => [(v, (int v).type)]
  | decimal _ | str _ | bool _ | param _ => []
  | paren e | neg e => e.integers
  | arith _ l r | concat l r => l.integers ++ r.integers

def valueOf (digits : String) : Nat := Text.natOfDigits digits.toList

def typedValue (digits : String) : Nat × SqlType :=
  (valueOf digits, if valueOf digits < Nat.pow 2 31 then .int else .bigint)

/-- The Java literal is decimal and has the value of the digits, also behind a minus sign. Its type
is the narrower one that has the value, and a suffix tells the wider one. -/
inductive Keeps (digits : String) : List Char → Prop
  | int {literal : List Char} (hrange : valueOf digits < Nat.pow 2 31)
      (hplain : Java.Tree.isPlain literal)
      (hvalue : ∀ negated, Java.integer? negated literal = some (.int, (valueOf digits : Int))) :
      Keeps digits literal
  | long {literal : List Char} (hlarge : Nat.pow 2 31 ≤ valueOf digits)
      (hrange : valueOf digits < Nat.pow 2 63) (hplain : Java.Tree.isPlain literal)
      (hvalue : ∀ negated, Java.integer? negated (literal ++ ['L']) =
        some (.long, (valueOf digits : Int))) :
      Keeps digits (literal ++ ['L'])

theorem keeps_int {digits : String} (h : valueOf digits < Nat.pow 2 31) :
    Keeps digits (toString (valueOf digits)).toList := by
  have hplain := Java.isPlain_toString (valueOf digits)
  have hvalue := Text.natOfDigits_toString (valueOf digits)
  refine .int h hplain fun negated => ?_
  rw [Java.integer?_int hplain (by rwa [hvalue]), hvalue]

theorem keeps_long {digits : String} (hlarge : ¬ valueOf digits < Nat.pow 2 31)
    (h : valueOf digits < Nat.pow 2 63) :
    Keeps digits ((toString (valueOf digits)).toList ++ ['L']) := by
  have hplain := Java.isPlain_toString (valueOf digits)
  have hvalue := Text.natOfDigits_toString (valueOf digits)
  refine .long (Nat.le_of_not_lt hlarge) h hplain fun negated => ?_
  rw [Java.integer?_long hplain (by rwa [hvalue]), hvalue]

theorem integers_append (ts us : List Token) : integers (ts ++ us) = integers ts ++ integers us :=
  List.filterMap_append

/-- What becomes of the whole numbers among the tokens of an expression. -/
structure Carried (ts : List Token) (e : Expr) : Prop where
  read : e.integers = (integers ts).map typedValue
  written : List.Forall₂ Keeps (integers ts) (Java.integers e.lower.tokens)

theorem Carried.binary {ts us : List Token} {l r e : Expr} (o : Op) (hl : Carried ts l)
    (hr : Carried us r) (hread : e.integers = l.integers ++ r.integers)
    (hwritten : Java.integers e.lower.tokens =
      Java.integers l.lower.tokens ++ Java.integers r.lower.tokens) :
    Carried (ts ++ .op o :: us) e := by
  have hints : integers (ts ++ .op o :: us) = integers ts ++ integers us := integers_append _ _
  constructor
  · rw [hints, hread, List.map_append, hl.read, hr.read]
  · rw [hints, hwritten]
    exact List.rel_append hl.written hr.written

theorem Derives.carried {params : List Param} {level : Level} {ts : List Token} {e : Expr}
    (h : Derives params level ts e) : Carried ts e := by
  induction h with
  | @int digits hpoint hrange =>
      have hints : integers [.number digits] = [digits] := by simp [integers, hpoint]
      refine ⟨by rw [hints]; rfl, ?_⟩
      rw [hints, Expr.lower]
      split
      · next hsmall =>
          rw [Java.integers_int]
          exact .cons (keeps_int hsmall) .nil
      · next hlarge =>
          rw [Java.integers_long]
          exact .cons (keeps_long hlarge hrange) .nil
  | @decimal digits hpoint =>
      have hints : integers [.number digits] = [] := by simp [integers, hpoint]
      refine ⟨by rw [hints]; rfl, ?_⟩
      rw [hints]
      simp [Java.integers, Expr.lower, Java.Expr.tokens, hpoint]
  | str | true | false | param => exact ⟨rfl, .nil⟩
  | @paren ts e _ ih =>
      have hints : integers (.leftParen :: ts ++ [.rightParen]) = integers ts := by simp [integers]
      have hwritten : Java.integers e.paren.lower.tokens = Java.integers e.lower.tokens := by
        simp [Expr.lower, Java.Expr.tokens, Java.integers]
      constructor
      · rw [hints]
        exact ih.read
      · rw [hints, hwritten]
        exact ih.written
  | atom _ ih | unary _ ih | term _ ih => exact ih
  | @neg ts e _ ih =>
      refine ⟨ih.read, ?_⟩
      rw [Expr.lower, Java.integers_negated]
      exact ih.written
  | @product _ _ a _ _ _ _ _ ihl ihr | @sum _ _ a _ _ _ _ _ ihl ihr =>
      exact ihl.binary a.op ihr rfl (Java.integers_append _ _)
  | concat _ _ ihl ihr =>
      refine ihl.binary .concat ihr rfl ?_
      simp [Expr.lower, Java.Expr.tokens, Java.integers]

theorem integers_convert {e : Expr} {returns : SqlType} {java : Java.Expr}
    (h : e.convert returns = .ok java) :
    Java.integers java.tokens = Java.integers e.lower.tokens := by
  unfold Expr.convert at h
  split at h
  · rw [Except.ok.inj h]
  · split at h
    · obtain rfl := Except.ok.inj h
      simp [Java.Expr.tokens, Java.integers]
    · split at h
      · obtain rfl := Except.ok.inj h
        split <;> simp [Java.Expr.tokens, Java.integers]
      · cases h

theorem ParamTokens.number_not_mem {ps : List Param} {ts : List Token} (h : ParamTokens ps ts)
    (digits : String) : .number digits ∉ ts := by
  induction h with
  | last _ => simp
  | more _ _ ih => simpa using ih

theorem Header.number_not_mem {ps : List Param} {returns : SqlType} {head : List Token}
    (h : Header ps returns head) (digits : String) : .number digits ∉ head := by
  cases h with
  | intro _ hparams _ _ _ =>
      rcases hparams with ⟨-, rfl⟩ | hparams
      · simp
      · simpa using hparams.number_not_mem digits

theorem integers_eq_nil {ts : List Token} (h : ∀ digits, .number digits ∉ ts) :
    integers ts = [] := by
  rw [integers, List.filterMap_eq_nil_iff]
  intro t ht
  cases t with
  | number digits => exact absurd ht (h digits)
  | ident | str | leftParen | rightParen | comma | op => rfl

theorem Declares.carried {params : List Param} {returns : SqlType} {body : Expr}
    {ts : List Token} (h : Declares params returns body ts) : Carried ts body := by
  cases h with
  | @intro head rest t hheader _ _ hderives _ _ =>
      have hints : integers (head ++ rest) = integers rest := by
        rw [integers_append, integers_eq_nil hheader.number_not_mem, List.nil_append]
      obtain ⟨hread, hwritten⟩ := hderives.carried
      exact ⟨hints ▸ hread, hints ▸ hwritten⟩

/-- A token in the place of another one: itself, or a small whole number for a whole number. -/
inductive Replaces : Token → Token → Prop
  | same (t : Token) : Replaces t t
  | whole {digits former : String} (hpoint : '.' ∉ digits.toList) (hformer : '.' ∉ former.toList)
      (hrange : valueOf digits < Nat.pow 2 63) : Replaces (.number digits) (.number former)

theorem replaces_numeral {digits former : String} (hpoint : '.' ∉ digits.toList)
    (hformer : '.' ∉ former.toList) (hrange : valueOf digits < Nat.pow 2 63)
    (before after : List Token) : List.Forall₂ Replaces (before ++ .number digits :: after)
      (before ++ .number former :: after) := by
  have hsame (ts : List Token) : List.Forall₂ Replaces ts ts :=
    List.forall₂_same.mpr fun t _ => .same t
  exact List.rel_append (hsame before) (.cons (.whole hpoint hformer hrange) (hsame after))

theorem replaces_singleton {us : List Token} {t : Token} (h : List.Forall₂ Replaces us [t]) :
    ∃ u, us = [u] ∧ Replaces u t := by
  obtain ⟨u, us, hu, hnil, rfl⟩ := List.forall₂_cons_right_iff.mp h
  obtain rfl := List.forall₂_nil_right_iff.mp hnil
  exact ⟨u, rfl, hu⟩

theorem replaces_append {us ts vs : List Token} (h : List.Forall₂ Replaces us (ts ++ vs)) :
    ∃ us' us'', us = us' ++ us'' ∧ List.Forall₂ Replaces us' ts ∧ List.Forall₂ Replaces us'' vs :=
  ⟨_, _, (List.take_append_drop ts.length us).symm, List.forall₂_take_append us ts vs h,
    List.forall₂_drop_append us ts vs h⟩

theorem replaces_operator {us ts vs : List Token} {o : Op}
    (h : List.Forall₂ Replaces us (ts ++ .op o :: vs)) :
    ∃ us' us'', us = us' ++ .op o :: us'' ∧ List.Forall₂ Replaces us' ts ∧
      List.Forall₂ Replaces us'' vs := by
  obtain ⟨us', us'', rfl, hleft, hrest⟩ := replaces_append h
  obtain ⟨u, us'', hu, hright, rfl⟩ := List.forall₂_cons_right_iff.mp hrest
  cases hu with
  | same => exact ⟨us', us'', rfl, hleft, hright⟩

theorem eq_of_replaces {us ts : List Token} (h : List.Forall₂ Replaces us ts)
    (hts : ∀ digits, .number digits ∉ ts) : us = ts := by
  induction h with
  | nil => rfl
  | @cons u t us ts hu _ ih =>
      have hrest := ih fun digits hdigits => hts digits (List.mem_cons_of_mem _ hdigits)
      cases hu with
      | same => rw [hrest]
      | whole => exact absurd List.mem_cons_self (hts _)

/-- Equal, or both numeric: no operator and no type that is returned tells them apart. -/
def SqlType.Alike (s t : SqlType) : Prop := s = t ∨ s.Numeric ∧ t.Numeric

namespace SqlType.Alike

variable {s t returns : SqlType}

theorem numeric (h : s.Alike t) (hs : s.Numeric) : t.Numeric := by
  rcases h with rfl | ⟨-, ht⟩
  · exact hs
  · exact ht

theorem returnable (h : s.Alike t) (hs : s.Returnable returns) : t.Returnable returns := by
  rcases h with rfl | ⟨hnumeric, ht⟩
  · exact hs
  · rcases hs with rfl | hstring | ⟨-, hreturns⟩
    · exact .inr (.inr ⟨ht, hnumeric⟩)
    · exact .inr (.inl hstring)
    · exact .inr (.inr ⟨ht, hreturns⟩)

end SqlType.Alike

/-- Where the first body has a type, the second one has a type like it. -/
def Expr.Alike (e e' : Expr) : Prop :=
  ∀ t, e.HasType t → ∃ t', e'.HasType t' ∧ SqlType.Alike t t'

namespace Expr.Alike

variable {e e' l l' r r' : Expr}

theorem refl (e : Expr) : e.Alike e := fun t ht => ⟨t, ht, .inl rfl⟩

theorem int (v w : Nat) : (Expr.int v).Alike (.int w) := by
  intro t ht
  obtain ⟨t', ht'⟩ := hasType_int w
  refine ⟨t', ht', .inr ⟨?_, ?_⟩⟩
  · cases ht with
    | int => exact ⟨.int, rfl⟩
    | bigint => exact ⟨.long, rfl⟩
  · cases ht' with
    | int => exact ⟨.int, rfl⟩
    | bigint => exact ⟨.long, rfl⟩

theorem paren (h : e.Alike e') : e.paren.Alike e'.paren := by
  rintro t ⟨⟩
  next ht =>
    obtain ⟨t', ht', halike⟩ := h t ht
    exact ⟨t', .paren ht', halike⟩

theorem neg (h : e.Alike e') : e.neg.Alike e'.neg := by
  rintro t ⟨⟩
  next hnumeric ht =>
    obtain ⟨t', ht', halike⟩ := h t ht
    exact ⟨t', .neg ht' (halike.numeric hnumeric), halike⟩

theorem arith (a : Arith) (hl : l.Alike l') (hr : r.Alike r') :
    (Expr.arith a l r).Alike (.arith a l' r') := by
  rintro t ⟨⟩
  next s t p q hp hq hs ht =>
    obtain ⟨s', hs', hleft⟩ := hl s hs
    obtain ⟨t', ht', hright⟩ := hr t ht
    obtain ⟨p', hp'⟩ := hleft.numeric ⟨p, hp⟩
    obtain ⟨q', hq'⟩ := hright.numeric ⟨q, hq⟩
    exact ⟨_, .arith hs' ht' hp' hq',
      .inr ⟨⟨_, SqlType.prim?_ofPrim _⟩, ⟨_, SqlType.prim?_ofPrim _⟩⟩⟩

theorem concat (hl : l.Alike l') (hr : r.Alike r') : (Expr.concat l r).Alike (.concat l' r') := by
  rintro t ⟨⟩
  next s t hs ht =>
    obtain ⟨s', hs', -⟩ := hl s hs
    obtain ⟨t', ht', -⟩ := hr t ht
    exact ⟨.string, .concat hs' ht', .inl rfl⟩

end Expr.Alike

theorem Derives.replaced {params : List Param} {level : Level} {ts us : List Token} {e : Expr}
    (h : Derives params level ts e) (hus : List.Forall₂ Replaces us ts) :
    ∃ e', Derives params level us e' ∧ e.Alike e' := by
  induction h generalizing us with
  | int hpoint hrange =>
      obtain ⟨u, rfl, hu⟩ := replaces_singleton hus
      cases hu with
      | same => exact ⟨_, .int hpoint hrange, .refl _⟩
      | whole hpoint _ hrange => exact ⟨_, .int hpoint hrange, .int _ _⟩
  | decimal hpoint =>
      obtain ⟨u, rfl, hu⟩ := replaces_singleton hus
      cases hu with
      | same => exact ⟨_, .decimal hpoint, .refl _⟩
      | whole _ hformer => exact absurd hpoint hformer
  | str s =>
      obtain rfl := eq_of_replaces hus (by simp)
      exact ⟨_, .str s, .refl _⟩
  | true hid =>
      obtain rfl := eq_of_replaces hus (by simp)
      exact ⟨_, .true hid, .refl _⟩
  | false hid =>
      obtain rfl := eq_of_replaces hus (by simp)
      exact ⟨_, .false hid, .refl _⟩
  | param htrue hfalse hfind =>
      obtain rfl := eq_of_replaces hus (by simp)
      exact ⟨_, .param htrue hfalse hfind, .refl _⟩
  | paren _ ih =>
      obtain ⟨us', us'', rfl, hfront, hback⟩ := replaces_append hus
      obtain ⟨u, us, hopen, hinner, rfl⟩ := List.forall₂_cons_right_iff.mp hfront
      obtain rfl := eq_of_replaces hback (by simp)
      obtain ⟨e', he', halike⟩ := ih hinner
      cases hopen with
      | same => exact ⟨_, .paren he', halike.paren⟩
  | atom _ ih =>
      obtain ⟨e', he', halike⟩ := ih hus
      exact ⟨e', .atom he', halike⟩
  | neg _ ih =>
      obtain ⟨u, us, hsign, hinner, rfl⟩ := List.forall₂_cons_right_iff.mp hus
      obtain ⟨e', he', halike⟩ := ih hinner
      cases hsign with
      | same => exact ⟨_, .neg he', halike.neg⟩
  | unary _ ih =>
      obtain ⟨e', he', halike⟩ := ih hus
      exact ⟨e', .unary he', halike⟩
  | product ha _ _ ihl ihr =>
      obtain ⟨us', us'', rfl, hleft, hright⟩ := replaces_operator hus
      obtain ⟨l', hl', hl⟩ := ihl hleft
      obtain ⟨r', hr', hr⟩ := ihr hright
      exact ⟨_, .product ha hl' hr', .arith _ hl hr⟩
  | term _ ih =>
      obtain ⟨e', he', halike⟩ := ih hus
      exact ⟨e', .term he', halike⟩
  | sum ha _ _ ihl ihr =>
      obtain ⟨us', us'', rfl, hleft, hright⟩ := replaces_operator hus
      obtain ⟨l', hl', hl⟩ := ihl hleft
      obtain ⟨r', hr', hr⟩ := ihr hright
      exact ⟨_, .sum ha hl' hr', .arith _ hl hr⟩
  | concat _ _ ihl ihr =>
      obtain ⟨us', us'', rfl, hleft, hright⟩ := replaces_operator hus
      obtain ⟨l', hl', hl⟩ := ihl hleft
      obtain ⟨r', hr', hr⟩ := ihr hright
      exact ⟨_, .concat hl' hr', .concat hl hr⟩

theorem Declares.replaced {params : List Param} {returns : SqlType} {body : Expr}
    {ts us : List Token} (h : Declares params returns body ts)
    (hus : List.Forall₂ Replaces us ts) : ∃ body', Declares params returns body' us := by
  cases h with
  | @intro head rest t hheader hnamed hnonempty hderives htype hreturns =>
      obtain ⟨us', us'', rfl, hhead, hrest⟩ := replaces_append hus
      obtain rfl := eq_of_replaces hhead hheader.number_not_mem
      obtain ⟨body', hderives', halike⟩ := hderives.replaced hrest
      obtain ⟨t', htype', ht⟩ := halike t htype
      have hnonempty' : us'' ≠ [] := by
        rintro rfl
        exact hnonempty (List.forall₂_nil_left_iff.mp hrest)
      exact ⟨body', .intro hheader hnamed hnonempty' hderives' htype' (ht.returnable hreturns)⟩

theorem isNumeral_of_digits {cs : List Char} (hsome : cs ≠ []) (h : ∀ c ∈ cs, c.isDigit) :
    IsNumeral cs := by
  have hpoint : '.' ∉ cs := fun hmem => absurd (h '.' hmem) (by decide)
  refine ⟨hsome, fun c hc => .inl (h c hc), ?_, ?_, ?_⟩
  · rw [List.count_eq_zero.mpr hpoint]
    exact Nat.zero_le 1
  · exact fun hhead => hpoint (List.mem_of_head? hhead)
  · exact fun hlast => hpoint (List.mem_of_getLast? hlast)

theorem tokenize_numeral {head digits rest : String} {before : List Token}
    (hhead : Mode.between.run head.toList = .ok (before, .between))
    (hdigits : IsNumeral digits.toList) (hrest : ∀ c ∈ rest.toList.head?, ¬ Mode.isNumberRest c) :
    tokenize (head ++ digits ++ rest) =
      (tokensFrom .between rest.toList).map (before ++ .number digits :: ·) := by
  rw [tokenize, String.toList_append, String.toList_append, List.append_assoc,
    tokensFrom_append hhead, tokensFrom_numeral hdigits hrest]
  cases tokensFrom .between rest.toList <;> rfl

theorem integers_numeral {digits : String} (h : '.' ∉ digits.toList) (before after : List Token) :
    integers (before ++ .number digits :: after) =
      integers before ++ digits :: integers after := by
  have hnumeral : integers [.number digits] = [digits] := by simp [integers, h]
  rw [List.append_cons, integers_append, integers_append, hnumeral, List.append_assoc]
  rfl

theorem Keeps.range {digits : String} {literal : List Char} (h : Keeps digits literal) :
    valueOf digits < Nat.pow 2 63 := by
  cases h with
  | int hrange => exact Nat.lt_trans hrange (by decide)
  | long _ hrange => exact hrange

namespace Function

theorem integers_javaText {text : String} {f : Function} {ts : List Token}
    (h : parse text = .ok f) (hts : tokenize text = .ok ts) :
    f.body.integers = (integers ts).map typedValue ∧
      ∃ us, Java.lex f.javaText.toList = some us ∧
        List.Forall₂ Keeps (integers ts) (Java.integers us) := by
  obtain ⟨us, hus, hdeclares, hjava⟩ := parse_eq_ok_iff.mp h
  obtain rfl := Except.ok.inj (hts.symm.trans hus)
  refine ⟨hdeclares.carried.read, f.java.tokens, ?_, ?_⟩
  · rw [javaText, String.toList_ofList]
    exact Java.lex_eq_tokens (parse_spelled h).1
  · rw [integers_convert hjava]
    exact hdeclares.carried.written

/-- Where a function may have a zero, it may have every number below `2 ^ 63`, with any zeros in
front, and no other number. The numbers of its text are those of its body, each of the narrower type
that has it, and Java reads the same numbers of the same types, also behind a minus sign. -/
theorem integers_keep_value {head rest : String} {before : List Token}
    (hhead : Mode.between.run head.toList = .ok (before, .between))
    (hrest : ∀ c ∈ rest.toList.head?, ¬ Mode.isNumberRest c)
    (hplace : ∃ f, parse (head ++ "0" ++ rest) = .ok f) (digits : String)
    (hsome : digits.toList ≠ []) (hdigits : ∀ c ∈ digits.toList, c.isDigit) :
    ((∃ f, parse (head ++ digits ++ rest) = .ok f) ↔ valueOf digits < Nat.pow 2 63) ∧
    ∃ after, tokenize (head ++ digits ++ rest) = .ok (before ++ .number digits :: after) ∧
      ∀ f, parse (head ++ digits ++ rest) = .ok f →
        f.body.integers = (integers before ++ digits :: integers after).map typedValue ∧
        ∃ us, Java.lex f.javaText.toList = some us ∧
          List.Forall₂ Keeps (integers before ++ digits :: integers after) (Java.integers us) := by
  have hzero : IsNumeral "0".toList := isNumeral_of_digits (by simp) (by simp)
  have hpoint : '.' ∉ digits.toList := fun hmem => absurd (hdigits '.' hmem) (by decide)
  obtain ⟨f₀, hf₀⟩ := hplace
  obtain ⟨ts, hts, hdeclares, -⟩ := parse_eq_ok_iff.mp hf₀
  rw [tokenize_numeral hhead hzero hrest] at hts
  obtain ⟨after, hafter, rfl⟩ := map_ok hts
  have htokens : tokenize (head ++ digits ++ rest) = .ok (before ++ .number digits :: after) := by
    rw [tokenize_numeral hhead (isNumeral_of_digits hsome hdigits) hrest, hafter]
    rfl
  have hall (f : Function) (hf : parse (head ++ digits ++ rest) = .ok f) :=
    integers_numeral hpoint before after ▸ integers_javaText hf htokens
  refine ⟨⟨?_, ?_⟩, after, htokens, hall⟩
  · rintro ⟨f, hf⟩
    obtain ⟨-, us, -, hkeeps⟩ := hall f hf
    have hranges := hkeeps.imp fun _ _ hliteral => And.intro hliteral.range hliteral
    exact ((List.forall₂_and_left _ _).mp hranges).1 digits (by simp)
  · intro hrange
    obtain ⟨body, hbody⟩ :=
      hdeclares.replaced (replaces_numeral hpoint (by decide) hrange before after)
    obtain ⟨java, hjava⟩ := exists_parse_iff.mpr ⟨_, htokens, hbody⟩
    exact ⟨_, hjava⟩

def negatedHead : String := "FUNCTION (n BIGINT) RETURNS STRING AS n * -"

def negatedTokens : List Token :=
  [.ident "FUNCTION", .leftParen, .ident "n", .ident "BIGINT", .rightParen, .ident "RETURNS",
    .ident "STRING", .ident "AS", .ident "n", .op .mul, .op .sub]

theorem integers_keep_value_negated :
    Mode.between.run negatedHead.toList = .ok (negatedTokens, .between) ∧
      (∀ c ∈ " + 010;".toList.head?, ¬ Mode.isNumberRest c) ∧
      (∃ f, parse (negatedHead ++ "0" ++ " + 010;") = .ok f) ∧
      ∃ f us, parse (negatedHead ++ "0002147483648" ++ " + 010;") = .ok f ∧
        f.body.integers = [(2147483648, .bigint), (10, .int)] ∧
        Java.lex f.javaText.toList = some us ∧
        List.Forall₂ Keeps ["0002147483648", "010"] (Java.integers us) := by
  have hhead : Mode.between.run negatedHead.toList = .ok (negatedTokens, .between) := by
    apply ok_of_toOption
    decide +kernel
  have hrest : ∀ c ∈ " + 010;".toList.head?, ¬ Mode.isNumberRest c := by
    intro c hc
    obtain rfl : ' ' = c := Option.some.inj hc
    decide
  have hplace : ∃ f, parse (negatedHead ++ "0" ++ " + 010;") = .ok f := by
    refine ⟨⟨[⟨"n", .bigint⟩], .string, ?_, ?_⟩, ok_of_toOption ?_⟩
    · exact .arith .add (.arith .mul (.param ⟨"n", .bigint⟩) (.neg (.int 0))) (.int 10)
    · exact .valueOf (.binary .add (.binary .mul (.name "n") (.neg (.int 0))) (.int 10))
    · decide +kernel
  have htokens : tokenize (negatedHead ++ "0002147483648" ++ " + 010;") =
      .ok (negatedTokens ++ [.number "0002147483648", .op .add, .number "010"]) := by
    apply ok_of_toOption
    decide +kernel
  have hdigits : ∀ c ∈ "0002147483648".toList, c.isDigit := List.all_eq_true.mp (by decide)
  obtain ⟨haccepted, after, hafter, hall⟩ :=
    integers_keep_value hhead hrest hplace "0002147483648" (by simp) hdigits
  obtain ⟨f, hf⟩ := haccepted.mpr (by decide)
  obtain ⟨hintegers, us, hus, hkeeps⟩ := hall f hf
  obtain ⟨-, rfl⟩ := List.cons.inj
    (List.append_cancel_left (Except.ok.inj (hafter.symm.trans htokens)))
  exact ⟨hhead, hrest, hplace, f, us, hf, hintegers, hus, hkeeps⟩

end Function

end FunctionJar.Sql
