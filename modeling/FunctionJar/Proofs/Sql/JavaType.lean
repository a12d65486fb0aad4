import FunctionJar.Proofs.Java.Typing
import FunctionJar.Proofs.Sql.Acceptance
import FunctionJar.Proofs.Sql.Lowering
import FunctionJar.Proofs.Sql.Rendering

namespace FunctionJar.Sql

def scope (params : List Param) (id : String) : Option Java.Ty :=
  (params.find? fun p => p.name == id).bind fun p => Java.Ty.ofClass? p.type.wrapper

namespace SqlType

def value : SqlType → Java.Ty
  | int => .prim .int
  | bigint => .prim .long
  | float => .prim .float
  | double => .prim .double
  | boolean => .boolean
  | string => .string

theorem ofClass?_wrapper (t : SqlType) : Java.Ty.ofClass? t.wrapper = some t.value.boxed := by
  cases t <;> rfl

theorem value_of_prim? {t : SqlType} {p : Java.Prim} (h : t.prim? = some p) :
    t.value = .prim p := by
  cases t <;> cases h <;> rfl

theorem value_ofPrim (p : Java.Prim) : (ofPrim p).value = .prim p := by cases p <;> rfl

end SqlType

theorem scope_of_mem {params : List Param} {p : Param} (hnamed : Named params) (hp : p ∈ params) :
    scope params p.name = some p.type.value.boxed := by
  have hfind : params.find? (fun q => q.name == p.name) = some p := by
    have hdistinct := hnamed.distinct
    clear hnamed
    induction params with
    | nil => cases hp
    | cons q qs ih =>
        obtain ⟨hq, hqs⟩ := List.pairwise_cons.mp hdistinct
        rcases List.mem_cons.mp hp with rfl | hp
        · simp
        · have hne : q.name ≠ p.name := by
            intro he
            have hletters := hq p hp
            simp [Text.sameLetters, he] at hletters
          rw [List.find?_cons_of_neg (by simpa using hne)]
          exact ih hp hqs
  rw [scope, hfind, Option.bind_some, SqlType.ofClass?_wrapper]

namespace Expr

def decimals : Expr → List String
  | decimal digits => [digits]
  | int _ | str _ | bool _ | param _ => []
  | paren e | neg e => e.decimals
  | arith _ l r | concat l r => l.decimals ++ r.decimals

/-- All decimal literals of a body are in the range of their type. -/
def InRange (e : Expr) : Prop := ∀ digits ∈ e.decimals, Java.isDouble digits.toList

def javaType (e : Expr) (t : SqlType) : Java.Ty := if e.isBoxed then t.value.boxed else t.value

/-- Java types a part of a body exactly if its literals are in range. -/
structure Agrees (params : List Param) (e : Expr) (t : SqlType) : Prop where
  type : e.InRange → e.image.type? (scope params) = some (e.javaType t)
  proper : e.image.Proper (scope params)

variable {params : List Param} {e l r : Expr} {s t : SqlType} {p q : Java.Prim}

theorem inRange_append : (∀ digits ∈ l.decimals ++ r.decimals, Java.isDouble digits.toList) ↔
    l.InRange ∧ r.InRange := by
  simp only [InRange, List.mem_append, or_imp, forall_and]

theorem inRange_of_type? {scope : String → Option Java.Ty} {t : Java.Ty}
    (h : e.image.type? scope = some t) : e.InRange := by
  induction e generalizing t with
  | int | str | bool | param => exact nofun
  | decimal digits =>
      rw [image, Java.Tree.type?] at h
      split at h
      · next hdouble => exact fun d hd => List.mem_singleton.mp hd ▸ hdouble
      · cases h
  | paren e ih => exact ih h
  | neg e ih =>
      obtain ⟨s, hs, -⟩ := Option.bind_eq_some_iff.mp h
      exact ih hs
  | arith a l r ihl ihr =>
      obtain ⟨s, hs, h⟩ := Option.bind_eq_some_iff.mp h
      obtain ⟨t, ht, -⟩ := Option.bind_eq_some_iff.mp h
      exact inRange_append.mpr ⟨ihl hs, ihr ht⟩
  | concat l r ihl ihr =>
      obtain ⟨s, hs, h⟩ := Option.bind_eq_some_iff.mp h
      obtain ⟨t, ht, -⟩ := Option.bind_eq_some_iff.mp h
      obtain ⟨s, hs, -⟩ := Option.bind_eq_some_iff.mp hs
      obtain ⟨t, ht, -⟩ := Option.bind_eq_some_iff.mp ht
      exact inRange_append.mpr ⟨ihl hs, ihr ht⟩

theorem inRange_of_isBoxed (h : e.isBoxed) : e.InRange := by
  induction e with
  | param => exact nofun
  | paren e ih => exact ih h
  | int | decimal | str | bool | neg | arith | concat => cases h

theorem boxed_javaType (e : Expr) (t : SqlType) : (e.javaType t).boxed = t.value.boxed := by
  unfold javaType
  split <;> simp

theorem numeric?_javaType (e : Expr) (h : t.prim? = some p) :
    (e.javaType t).numeric? = some p := by
  have hvalue : t.value.numeric? = some p := by
    rw [SqlType.value_of_prim? h]
    rfl
  unfold javaType
  split
  · rw [Java.Ty.numeric?_boxed, hvalue]
  · exact hvalue

theorem javaType_of_value (h : e.isBoxed = false) (t : SqlType) : e.javaType t = t.value :=
  if_neg (by simp [h])

theorem agrees_int {v : Nat} (hrange : v < Nat.pow 2 63) (h : HasType (.int v) t) :
    Agrees params (.int v) t := by
  cases h with
  | int hsmall =>
      have himage : image (.int v) = .int v := if_pos hsmall
      constructor <;> rw [himage]
      · exact fun _ => if_pos hsmall
      · trivial
  | bigint hlarge =>
      have himage : image (.int v) = .long v := if_neg hlarge
      constructor <;> rw [himage]
      · exact fun _ => if_pos hrange
      · trivial

theorem agrees_decimal (digits : String) : Agrees params (.decimal digits) .double where
  type h := if_pos (h digits (List.mem_singleton_self _))
  proper := trivial

theorem Agrees.arith {a : Arith} (hl : Agrees params l s) (hr : Agrees params r t)
    (hs : s.prim? = some p) (ht : t.prim? = some q) :
    Agrees params (.arith a l r) (.ofPrim (p.promote q)) where
  type h := by
    obtain ⟨hrangel, hranger⟩ := inRange_append.mp h
    have hbinary : Java.Ty.binary? (arithOp a) (l.javaType s) (r.javaType t) =
        some (.prim (p.common q)) :=
      Java.Ty.binary?_of_numeric (numeric?_javaType l hs) (numeric?_javaType r ht)
    rw [javaType_of_value rfl, SqlType.value_ofPrim, Java.Prim.promote_eq_common, image,
      Java.Tree.type?, hl.type hrangel, hr.type hranger]
    exact hbinary
  proper := ⟨hl.proper, hr.proper⟩

theorem Agrees.neg (h : Agrees params e t) (ht : t.prim? = some p) : Agrees params (.neg e) t where
  type hrange := by
    rw [image, Java.Tree.type?_neg (h.type hrange) (numeric?_javaType e ht), javaType_of_value rfl,
      SqlType.value_of_prim? ht]
  proper := h.proper

theorem Agrees.concat (hl : Agrees params l s) (hr : Agrees params r t) :
    Agrees params (.concat l r) .string where
  type h := by
    obtain ⟨hrangel, hranger⟩ := inRange_append.mp h
    rw [image, Java.Tree.type?, Java.Tree.type?_valueOf (hl.type hrangel),
      Java.Tree.type?_valueOf (hr.type hranger)]
    rfl
  proper := ⟨⟨rfl, rfl, hl.proper⟩, rfl, rfl, hr.proper⟩

end Expr

theorem Derives.agrees {params : List Param} {level : Level} {ts : List Token} {e : Expr}
    {t : SqlType} (hnamed : Named params) (h : Derives params level ts e) (htype : e.HasType t) :
    e.Agrees params t := by
  -- Only the derivation says how large literals are and where parameters come from.
  induction h generalizing t with
  | int _ hrange => exact Expr.agrees_int hrange htype
  | decimal =>
      cases htype
      exact Expr.agrees_decimal _
  | str | true | false =>
      cases htype
      exact ⟨fun _ => rfl, trivial⟩
  | param _ _ hfind =>
      cases htype
      have hscope := scope_of_mem hnamed (List.mem_of_find?_eq_some hfind)
      exact ⟨fun _ => hscope, Option.isSome_of_eq_some hscope⟩
  | paren _ ih =>
      cases htype with
      | paren h => exact ⟨(ih h).type, (ih h).proper⟩
  | atom _ ih | unary _ ih | term _ ih => exact ih htype
  | neg _ ih =>
      cases htype with
      | neg h hnumeric => exact (ih h).neg hnumeric.choose_spec
  | product _ _ _ ihl ihr | sum _ _ _ ihl ihr =>
      cases htype with
      | arith hl hr hs ht => exact (ihl hl).arith (ihr hr) hs ht
  | concat _ _ ihl ihr =>
      cases htype with
      | concat hl hr => exact (ihl hl).concat (ihr hr)

namespace Expr

variable {params : List Param} {e : Expr} {returns : SqlType}

/-- The conversion to the type that is returned is a method call for strings, and for numbers a cast
of a value, which for a wrapper object its own method gives. -/
inductive Converted (e : Expr) : SqlType → Java.Tree → Prop
  | same : Converted e e.type e.image
  | string : Converted e .string e.image.valueOf
  | object {id : String} {returns : SqlType} {source target : Java.Prim}
      (himage : e.image = .name id) (hsource : e.type.prim? = some source)
      (htarget : returns.prim? = some target) :
      Converted e returns (.cast target (.call (.name id) source.valueMethod))
  | value {returns : SqlType} {source target : Java.Prim} (hvalue : e.isBoxed = false)
      (hsource : e.type.prim? = some source) (htarget : returns.prim? = some target) :
      Converted e returns (.cast target e.image)

theorem converted_of_imageAs? {tree : Java.Tree} (h : e.imageAs? returns = some tree) :
    Converted e returns tree := by
  unfold imageAs? at h
  split at h
  · next hsame =>
      subst hsame
      obtain rfl := Option.some.inj h
      exact .same
  · split at h
    · next hstring =>
        subst hstring
        obtain rfl := Option.some.inj h
        exact .string
    · obtain ⟨source, hsource, h⟩ := Option.bind_eq_some_iff.mp h
      obtain ⟨target, htarget, h⟩ := Option.bind_eq_some_iff.mp h
      -- The tree of a body has no parentheses, so it is a name exactly if it is an object.
      split at h
      · next id himage =>
          obtain rfl := Option.some.inj h
          exact .object himage hsource htarget
      · next t hname =>
          have hvalue : e.isBoxed = false := by
            rw [Bool.eq_false_iff]
            intro hboxed
            obtain ⟨id, hid⟩ := isBoxed_iff_image.mp hboxed
            exact hname id hid
          obtain rfl := Option.some.inj h
          exact .value hvalue hsource htarget

theorem Agrees.type_object (h : e.Agrees params e.type) {id : String} (himage : e.image = .name id)
    {source : Java.Prim} (hsource : e.type.prim? = some source) :
    (Java.Tree.name id).type? (scope params) = some (.wrapper source) := by
  have hboxed := isBoxed_iff_image.mpr ⟨id, himage⟩
  have htype := h.type (inRange_of_isBoxed hboxed)
  rwa [himage, javaType, if_pos hboxed, SqlType.value_of_prim? hsource] at htype

theorem Agrees.type_value (h : e.Agrees params e.type) (hvalue : e.isBoxed = false)
    {source : Java.Prim} (hsource : e.type.prim? = some source) (hrange : e.InRange) :
    e.image.type? (scope params) = some (.prim source) := by
  have htype := h.type hrange
  rwa [javaType_of_value hvalue, SqlType.value_of_prim? hsource] at htype

theorem Converted.type {tree : Java.Tree} (hconverted : Converted e returns tree)
    (h : e.Agrees params e.type) (hrange : e.InRange) :
    ∃ t, tree.type? (scope params) = some t ∧ t.boxed = returns.value.boxed := by
  cases hconverted with
  | same => exact ⟨_, h.type hrange, boxed_javaType e e.type⟩
  | string => exact ⟨_, Java.Tree.type?_valueOf (h.type hrange), rfl⟩
  | object himage hsource htarget =>
      have htype := h.type_object himage hsource
      exact ⟨_, Java.Tree.type?_cast (Java.Tree.type?_call htype) rfl,
        by rw [SqlType.value_of_prim? htarget]⟩
  | value hvalue hsource htarget =>
      have htype := h.type_value hvalue hsource hrange
      exact ⟨_, Java.Tree.type?_cast htype rfl, by rw [SqlType.value_of_prim? htarget]⟩

theorem Converted.proper {tree : Java.Tree} (hconverted : Converted e returns tree)
    (h : e.Agrees params e.type) : tree.Proper (scope params) := by
  cases hconverted with
  | same => exact h.proper
  | string => exact ⟨rfl, rfl, h.proper⟩
  | object himage hsource =>
      have htype := h.type_object himage hsource
      have hproper := h.proper
      rw [himage] at hproper
      refine ⟨fun p hp => ?_, ⟨_, htype, rfl⟩, hproper⟩
      rw [Java.Tree.type?_call htype] at hp
      cases hp
  | value hvalue hsource =>
      refine ⟨fun p hp => ?_, h.proper⟩
      rw [h.type_value hvalue hsource (inRange_of_type? hp)] at hp
      cases hp

/-- A conversion leaves the literals of a body as they are. -/
theorem Converted.inRange {tree : Java.Tree} {t : Java.Ty} (hconverted : Converted e returns tree)
    (h : tree.type? (scope params) = some t) : e.InRange := by
  cases hconverted with
  | same => exact inRange_of_type? h
  | string | value =>
      obtain ⟨s, hs, -⟩ := Option.bind_eq_some_iff.mp h
      exact inRange_of_type? hs
  | object himage => exact inRange_of_isBoxed (isBoxed_iff_image.mpr ⟨_, himage⟩)

end Expr

/-- The Java text of a function has a type in the method that the function becomes exactly if all
decimal literals are in range, and boxing, if anything, makes it the type that the method returns.
The text of the body before its conversion has the body's type in the same way. -/
theorem type_javaText {text : String} {f : Function} (h : Function.parse text = .ok f) :
    ∃ body tree, Java.read f.body.lower.text = some body ∧
      Java.read f.javaText.toList = some tree ∧ tree.Proper (scope f.params) ∧
      (f.body.InRange →
        (∃ s, body.type? (scope f.params) = some s ∧
          Java.Ty.ofClass? f.body.type.wrapper = some s.boxed) ∧
        ∃ t, tree.type? (scope f.params) = some t ∧
          Java.Ty.ofClass? f.returns.wrapper = some t.boxed) ∧
      (¬ f.body.InRange →
        body.type? (scope f.params) = none ∧ tree.type? (scope f.params) = none) := by
  obtain ⟨ts, htokens, hdeclares, hconvert⟩ := Function.parse_eq_ok_iff.mp h
  have hfits := fits_tokenize htokens
  obtain ⟨hheader, hnamed, -, hderives, htype, -⟩ := hdeclares
  have hspellable := spellable_of_header hnamed hheader fun t ht =>
    hfits t (List.mem_append_left _ ht)
  have hlowered := hderives.lowered hspellable fun t ht => hfits t (List.mem_append_right _ ht)
  obtain ⟨hgrouped, hspelled, himage⟩ := Expr.convert_ok hlowered hconvert
  have hagrees := hderives.agrees hnamed htype
  rw [← htype.type_eq] at hagrees
  have hconverted := Expr.converted_of_imageAs? himage
  have htext : Java.read f.javaText.toList = some f.java.tree := by
    rw [Function.javaText, String.toList_ofList]
    exact Java.read_text hspelled hgrouped
  refine ⟨f.body.lower.tree, f.java.tree, Java.read_text hlowered.spelled hlowered.grouped, htext,
    hconverted.proper hagrees, fun hrange => ⟨⟨f.body.javaType f.body.type, ?_, ?_⟩, ?_⟩, fun hrange => ⟨?_, ?_⟩⟩
  · rw [Expr.tree_lower]
    exact hagrees.type hrange
  · rw [Expr.boxed_javaType, SqlType.ofClass?_wrapper]
  · obtain ⟨t, htree, hboxed⟩ := hconverted.type hagrees hrange
    exact ⟨t, htree, by rw [hboxed, SqlType.ofClass?_wrapper]⟩
  · rw [Expr.tree_lower, Option.eq_none_iff_forall_ne_some]
    exact fun t ht => hrange (Expr.inRange_of_type? ht)
  · rw [Option.eq_none_iff_forall_ne_some]
    exact fun t ht => hrange (hconverted.inRange ht)

theorem type_javaText_unboxed :
    ∃ f, Function.parse "FUNCTION (Amount BIGINT) RETURNS INT AS (amount)" = .ok f ∧
      f.javaText = "(int) (Amount).longValue()" ∧ f.body.InRange ∧
      ∃ body tree, Java.read f.body.lower.text = some body ∧
        Java.read f.javaText.toList = some tree ∧ tree.Proper (scope f.params) ∧
        (f.body.InRange →
          (∃ s, body.type? (scope f.params) = some s ∧
            Java.Ty.ofClass? f.body.type.wrapper = some s.boxed) ∧
          ∃ t, tree.type? (scope f.params) = some t ∧
            Java.Ty.ofClass? f.returns.wrapper = some t.boxed) ∧
        (¬ f.body.InRange →
          body.type? (scope f.params) = none ∧ tree.type? (scope f.params) = none) := by
  have hsome : (Function.parse "FUNCTION (Amount BIGINT) RETURNS INT AS (amount)").toOption =
      some ⟨[⟨"Amount", .bigint⟩], .int, .paren (.param ⟨"Amount", .bigint⟩),
        .cast .int (.unbox .long (.paren (.name "Amount")))⟩ := by
    decide +kernel
  have hparse := ok_of_toOption hsome
  exact ⟨_, hparse, by decide +kernel, nofun, type_javaText hparse⟩

theorem isNumeral_of_isDecimal {digits : List Char} (h : Java.IsDecimal digits) :
    IsNumeral digits := by
  have hlast : digits.getLast? ≠ some '.' := fun hlast =>
    absurd (h.isDigit_last hlast) (by decide)
  obtain ⟨whole, part, rfl, hwhole, -, hdigits, hbehind⟩ := h
  refine ⟨by simp, fun c hc => ?_, ?_, fun hfirst => ?_, hlast⟩
  · rw [List.mem_append, List.mem_cons] at hc
    rcases hc with hc | rfl | hc
    · exact .inl (hdigits c hc)
    · exact .inr rfl
    · exact .inl (hbehind c hc)
  · simp [List.count_eq_zero_of_not_mem (Java.point_not_mem hdigits),
      List.count_eq_zero_of_not_mem (Java.point_not_mem hbehind)]
  · obtain ⟨c, cs, rfl⟩ := List.exists_cons_of_ne_nil hwhole
    exact Java.point_not_mem hdigits (by simp_all)

theorem parse_decimal {digits : String} (h : Java.IsDecimal digits.toList) :
    Function.parse ("FUNCTION () RETURNS DOUBLE AS " ++ digits) =
      .ok ⟨[], .double, .decimal digits, .double digits⟩ := by
  have hpoint : '.' ∈ digits.toList := by
    obtain ⟨whole, part, hdigits, -⟩ := h
    simp [hdigits]
  have hhead : Mode.between.run "FUNCTION () RETURNS DOUBLE AS ".toList =
      .ok ([.ident "FUNCTION", .leftParen, .rightParen, .ident "RETURNS", .ident "DOUBLE",
        .ident "AS"], .between) := ok_of_toOption (by decide +kernel)
  have hnumber := @tokensFrom_numeral digits [] (isNumeral_of_isDecimal h) (by simp)
  rw [List.append_nil] at hnumber
  have hheader : Header [] .double [.ident "FUNCTION", .leftParen, .rightParen, .ident "RETURNS",
      .ident "DOUBLE", .ident "AS"] :=
    .intro (by decide +kernel) (.inl ⟨rfl, rfl⟩) (by decide +kernel) (by decide +kernel)
      (by decide +kernel)
  refine Function.parse_eq_ok_iff.mpr ⟨_, ?_, .intro hheader Function.named_nil
    (List.cons_ne_nil _ _) (.term (.unary (.atom (.decimal hpoint)))) (.decimal digits) (.inl rfl),
    rfl⟩
  rw [tokenize, String.toList_append, tokensFrom_append hhead, hnumber]
  rfl

def powerOfTen (n : Nat) : List Char := '1' :: List.replicate n '0' ++ ['.', '0']

theorem isDecimal_powerOfTen (n : Nat) : Java.IsDecimal (powerOfTen n) := by
  refine ⟨'1' :: List.replicate n '0', ['0'], by simp [powerOfTen], by simp, by simp, ?_, by simp⟩
  simp only [List.forall_mem_cons, List.mem_replicate]
  constructor
  · rfl
  · rintro c ⟨-, rfl⟩
    rfl

/-- A number that no `double` is near is accepted, and put into a Java text that has no type. -/
theorem large_decimal_has_no_type :
    ∃ f, Function.parse ("FUNCTION () RETURNS DOUBLE AS " ++ String.ofList (powerOfTen 309)) =
      .ok f ∧
      ∃ tree, Java.read f.javaText.toList = some tree ∧ tree.type? (scope f.params) = none := by
  have hdecimal : Java.IsDecimal (String.ofList (powerOfTen 309)).toList := by
    rw [String.toList_ofList]
    exact isDecimal_powerOfTen 309
  have hread := Java.read_text (e := .double (String.ofList (powerOfTen 309))) hdecimal hdecimal
  rw [Java.Expr.tree, String.toList_ofList] at hread
  refine ⟨_, parse_decimal hdecimal, .double (powerOfTen 309), ?_, by decide +kernel⟩
  rw [Function.javaText, String.toList_ofList, hread]

end FunctionJar.Sql
