import FunctionJar.Proofs.Java.Reading
import FunctionJar.Proofs.Sql.Header
import FunctionJar.Proofs.Sql.Token

namespace FunctionJar

theorem ClassName.not_reserved_of_fault? {name : String} (hname : isIdentifier name.toList)
    (h : fault? name = none) : name ∉ reserved := by
  have hpoint : '.' ∉ name.toList := by
    intro hmem
    cases hs : name.toList with
    | nil => simp [hs] at hmem
    | cons c cs =>
        rw [hs, isIdentifier, Bool.and_eq_true, List.all_eq_true] at hname
        rw [hs] at hmem
        rcases List.mem_cons.mp hmem with rfl | hmem
        · exact absurd hname.1 (by decide)
        · exact absurd (hname.2 _ hmem) (by decide)
  have hsegments : segments name = [name] := by
    rw [segments, Text.splitAt_of_not_mem hpoint, List.map_singleton, String.ofList_toList]
  intro hmem
  unfold fault? at h
  split at h
  · cases h
  · rw [hsegments] at h
    simp_all [segmentFault?]

namespace Java.Expr

theorem tree_negated (e : Expr) : e.negated.tree = .neg e.tree := by
  unfold negated
  split <;> rfl

theorem rank_negated (e : Expr) : e.negated.rank = 2 := by
  unfold negated
  split <;> rfl

theorem Spelled.negated {e : Expr} (h : e.Spelled) : e.negated.Spelled := by
  unfold Expr.negated
  split
  · exact ⟨h, by simp [text]⟩
  · next hhead => exact ⟨h, hhead⟩

theorem Grouped.negated {e : Expr} (hrank : 2 ≤ e.rank) (h : e.Grouped) : e.negated.Grouped := by
  unfold Expr.negated
  split
  · exact ⟨by simp [rank], h⟩
  · exact ⟨hrank, h⟩

end Java.Expr

namespace Sql

namespace Expr

def image : Expr → Java.Tree
  | int v => if v < Nat.pow 2 31 then .int v else .long v
  | decimal d => .double d.toList
  | str s => .string (s.toList.flatMap Java.escapeChar)
  | bool b => .bool b
  | param p => .name p.name
  | paren e => e.image
  | neg e => .neg e.image
  | arith op l r => .binary (arithOp op) l.image r.image
  | concat l r => .binary .add (.valueOf l.image) (.valueOf r.image)

def imageAs? (e : Expr) (returns : SqlType) : Option Java.Tree :=
  if e.type = returns then some e.image
  else if returns = .string then some (.valueOf e.image)
  else do
    let source ← e.type.prim?
    let target ← returns.prim?
    match e.image with
    | .name id => some (.cast target (.call (.name id) source.valueMethod))
    | t => some (.cast target t)

theorem tree_lower (e : Expr) : e.lower.tree = e.image := by
  induction e with
  | int v =>
      rw [lower, image]
      split <;> rfl
  | decimal | str | bool | param => rfl
  | paren e ih => exact ih
  | neg e ih => rw [lower, Java.Expr.tree_negated, ih, image]
  | arith op l r ihl ihr => rw [lower, Java.Expr.tree, ihl, ihr, image]
  | concat l r ihl ihr => simp only [lower, Java.Expr.tree, ihl, ihr, image]

/-- What holds of the Java expression of a part of a body: it is closed enough for its level. -/
structure Lowered (level : Nat) (e : Expr) : Prop where
  rank : level ≤ e.lower.rank
  grouped : e.lower.Grouped
  spelled : e.lower.Spelled

theorem Lowered.mono {n m : Nat} {e : Expr} (h : Lowered n e) (hle : m ≤ n) : Lowered m e :=
  ⟨Nat.le_trans hle h.rank, h.grouped, h.spelled⟩

theorem Lowered.arith {n : Nat} {a : Arith} {l r : Expr} (hn : Java.Expr.opRank (arithOp a) = n)
    (hl : Lowered n l) (hr : Lowered (n + 1) r) : Lowered n (arith a l r) where
  rank := Nat.le_of_eq hn.symm
  grouped := ⟨hn ▸ hl.rank, hn ▸ hr.rank, hl.grouped, hr.grouped⟩
  spelled := ⟨hl.spelled, hr.spelled⟩

theorem opRank_arithOp (a : Arith) :
    Java.Expr.opRank (arithOp a) = if a.isSum then 0 else 1 := by
  cases a <;> rfl

end Expr

def Level.rank : Level → Nat
  | sum => 0
  | product => 1
  | unary => 2
  | atom => 3

/-- The names of parameters as Java takes them. -/
def Spellable (params : List Param) : Prop :=
  ∀ p ∈ params, ClassName.isIdentifier p.name.toList ∧ p.name ∉ ClassName.reserved

theorem Derives.lowered {params : List Param} {level : Level} {ts : List Token} {e : Expr}
    (hparams : Spellable params) (h : Derives params level ts e) (hts : ∀ t ∈ ts, t.Fits) :
    Expr.Lowered level.rank e := by
  induction h with
  | int _ hrange =>
      refine ⟨?_, ?_, ?_⟩ <;> rw [Expr.lower] <;> split
      · exact Nat.le_refl 3
      · exact Nat.le_refl 3
      · next hsmall => exact hsmall
      · exact hrange
      · trivial
      · trivial
  | @decimal digits hpoint =>
      have hnumber := hts (.number digits) (List.mem_singleton_self _)
      have hdecimal : Java.IsDecimal digits.toList := hnumber.resolve_left fun hall => hall.1 hpoint
      exact ⟨Nat.le_refl 3, hdecimal, hdecimal⟩
  | str s => exact ⟨Nat.le_refl 3, trivial, trivial⟩
  | true _ => exact ⟨Nat.le_refl 3, trivial, trivial⟩
  | false _ => exact ⟨Nat.le_refl 3, trivial, trivial⟩
  | param _ _ hfind =>
      obtain ⟨hname, hreserved⟩ := hparams _ (List.mem_of_find?_eq_some hfind)
      exact ⟨Nat.le_refl 3, hreserved, hname⟩
  | paren _ ih =>
      have hinner := ih fun t ht => hts t (by simp [ht])
      exact ⟨Nat.le_refl 3, hinner.grouped, hinner.spelled⟩
  | atom _ ih => exact (ih hts).mono (by decide)
  | neg _ ih =>
      have hinner := ih fun t ht => hts t (by simp [ht])
      refine ⟨?_, hinner.grouped.negated hinner.rank, hinner.spelled.negated⟩
      exact Nat.le_of_eq (Java.Expr.rank_negated _).symm
  | unary _ ih => exact (ih hts).mono (by decide)
  | product ha _ _ ihl ihr =>
      exact .arith (by rw [Expr.opRank_arithOp, ha]; rfl) (ihl fun t ht => hts t (by simp [ht]))
        (ihr fun t ht => hts t (by simp [ht]))
  | term _ ih => exact (ih hts).mono (by decide)
  | sum ha _ _ ihl ihr =>
      exact .arith (by rw [Expr.opRank_arithOp, ha]; rfl) (ihl fun t ht => hts t (by simp [ht]))
        (ihr fun t ht => hts t (by simp [ht]))
  | concat _ _ ihl ihr =>
      have hl := ihl fun t ht => hts t (by simp [ht])
      have hr := ihr fun t ht => hts t (by simp [ht])
      exact ⟨Nat.le_refl 0, ⟨Nat.zero_le _, Nat.zero_lt_succ 2, hl.grouped, hr.grouped⟩,
        ⟨hl.spelled, hr.spelled⟩⟩

namespace Expr

theorem isBoxed_iff_image {e : Expr} : e.isBoxed ↔ ∃ id, e.image = .name id := by
  induction e with
  | int v =>
      rw [image]
      split <;> simp [isBoxed]
  | paren e ih => exact ih
  | decimal | str | bool | param | neg | arith | concat => simp [isBoxed, image]

theorem rank_of_isBoxed {e : Expr} (h : e.isBoxed) : e.lower.rank = 3 := by
  cases e with
  | param | paren => rfl
  | int | decimal | str | bool | neg | arith | concat => simp [isBoxed] at h

theorem endsInNumber_of_isBoxed {e : Expr} (h : e.isBoxed) : e.lower.endsInNumber = false := by
  cases e with
  | param | paren => rfl
  | int | decimal | str | bool | neg | arith | concat => simp [isBoxed] at h

theorem convert_ok {e : Expr} {returns : SqlType} {java : Java.Expr} (he : Lowered 0 e)
    (h : e.convert returns = .ok java) :
    java.Grouped ∧ java.Spelled ∧ e.imageAs? returns = some java.tree := by
  unfold convert at h
  unfold imageAs?
  split at h
  · next hsame =>
      obtain rfl := Except.ok.inj h
      exact ⟨he.grouped, he.spelled, by rw [if_pos hsame, tree_lower]⟩
  · next hdiffer =>
      split at h
      · next hstring =>
          obtain rfl := Except.ok.inj h
          refine ⟨he.grouped, he.spelled, ?_⟩
          rw [if_neg hdiffer, if_pos hstring, Java.Expr.tree, tree_lower]
      · next hstring =>
          split at h
          · next source target hsource htarget =>
              obtain rfl := Except.ok.inj h
              rw [if_neg hdiffer, if_neg hstring, hsource, htarget]
              by_cases hboxed : e.isBoxed
              · obtain ⟨id, hid⟩ := isBoxed_iff_image.mp hboxed
                have hrank := rank_of_isBoxed hboxed
                rw [if_pos hboxed]
                refine ⟨⟨by simp [Java.Expr.rank], hrank, he.grouped⟩,
                  ⟨he.spelled, endsInNumber_of_isBoxed hboxed⟩, ?_⟩
                simp [hid, Java.Expr.tree, tree_lower]
              · have hname : ∀ id, e.image ≠ .name id := fun id hid =>
                  hboxed (isBoxed_iff_image.mpr ⟨id, hid⟩)
                rw [if_neg hboxed]
                refine ⟨⟨by simp [Java.Expr.rank], he.grouped⟩, he.spelled, ?_⟩
                cases himage : e.image <;> simp_all [Java.Expr.tree, tree_lower]
          · cases h

end Expr

theorem spellable_of_header {ps : List Param} {returns : SqlType} {head : List Token}
    (hnamed : Named ps) (h : Header ps returns head) (hhead : ∀ t ∈ head, t.Fits) :
    Spellable ps := by
  intro p hp
  have hmem : .ident p.name ∈ head := by
    cases h with
    | intro _ hparams _ _ _ =>
        rcases hparams with ⟨rfl, -⟩ | hparams
        · simp at hp
        · simp [hparams.mem_name p hp]
  have hname : ClassName.isIdentifier p.name.toList := hhead _ hmem
  exact ⟨hname, ClassName.not_reserved_of_fault? hname (hnamed.usable p hp)⟩

theorem Function.parse_spelled {text : String} {f : Function} (h : Function.parse text = .ok f) :
    f.java.Spelled ∧ Spellable f.params := by
  obtain ⟨head, body, htokens, haccepted⟩ := Function.parse_ok h
  have hfits := fits_tokenize htokens
  have honly := Expr.derives_iff_of_parse haccepted.parsed
  have hspellable := spellable_of_header haccepted.named haccepted.header fun t ht =>
    hfits t (List.mem_append_left _ ht)
  have hlowered := ((honly f.body).mpr rfl).lowered hspellable fun t ht =>
    hfits t (List.mem_append_right _ ht)
  exact ⟨(Expr.convert_ok hlowered haccepted.converted).2.1, hspellable⟩

/-- The body of a function has one reading as an expression, and Java reads the text that is made
of it as that very expression, converted to the type that the function returns. -/
theorem read_javaText {text : String} {f : Function} (h : Function.parse text = .ok f) :
    ∃ head body e, tokenize text = .ok (head ++ body) ∧ Header f.params f.returns head ∧
      (∀ e', Derives f.params .sum body e' ↔ e' = e) ∧
      ∃ tree, e.imageAs? f.returns = some tree ∧ Java.read f.javaText.toList = some tree := by
  obtain ⟨head, body, htokens, haccepted⟩ := Function.parse_ok h
  have hfits := fits_tokenize htokens
  have honly := Expr.derives_iff_of_parse haccepted.parsed
  have hspellable := spellable_of_header haccepted.named haccepted.header fun t ht =>
    hfits t (List.mem_append_left _ ht)
  have hlowered := ((honly f.body).mpr rfl).lowered hspellable fun t ht =>
    hfits t (List.mem_append_right _ ht)
  obtain ⟨hgrouped, hspelled, himage⟩ := Expr.convert_ok hlowered haccepted.converted
  refine ⟨head, body, f.body, htokens, haccepted.header, honly, f.java.tree, himage, ?_⟩
  rw [Function.javaText, String.toList_ofList]
  exact Java.read_text hspelled hgrouped

theorem read_javaText_negations :
    ∃ f, Function.parse "FUNCTION (A INT) RETURNS BIGINT AS - -a % 2" = .ok f ∧
      f.javaText = "(long) (-(-A) % 2)" ∧ ∃ head body e,
        tokenize "FUNCTION (A INT) RETURNS BIGINT AS - -a % 2" = .ok (head ++ body) ∧
        Header f.params f.returns head ∧ (∀ e', Derives f.params .sum body e' ↔ e' = e) ∧
        ∃ tree, e.imageAs? f.returns = some tree ∧ Java.read f.javaText.toList = some tree := by
  have hsome : (Function.parse "FUNCTION (A INT) RETURNS BIGINT AS - -a % 2").toOption =
      some ⟨[⟨"A", .int⟩], .bigint, .arith .rem (.neg (.neg (.param ⟨"A", .int⟩))) (.int 2),
        .cast .long (.paren (.binary .rem (.neg (.paren (.neg (.name "A")))) (.int 2)))⟩ := by
    decide +kernel
  have hparse := ok_of_toOption hsome
  exact ⟨_, hparse, by decide +kernel, read_javaText hparse⟩

end Sql

end FunctionJar
