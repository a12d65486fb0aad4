import FunctionJar.Sql.Function
import FunctionJar.Proofs.Except

namespace FunctionJar.Sql

/-- How close the parts of an expression hold together. -/
inductive Level
  | sum
  | product
  | unary
  | atom
  deriving DecidableEq, Repr

def Arith.isSum (a : Arith) : Bool := Expr.isSum a.op

/-- The tokens of an expression. Sums and products are built from the left. -/
inductive Derives (params : List Param) : Level → List Token → Expr → Prop
  | int {digits} (hpoint : '.' ∉ digits.toList)
      (hrange : Text.natOfDigits digits.toList < Nat.pow 2 63) :
      Derives params .atom [.number digits] (.int (Text.natOfDigits digits.toList))
  | decimal {digits} (hpoint : '.' ∈ digits.toList) :
      Derives params .atom [.number digits] (.decimal digits)
  | str (s) : Derives params .atom [.str s] (.str s)
  | true {id} (h : Text.sameLetters id "true") : Derives params .atom [.ident id] (.bool true)
  | false {id} (h : Text.sameLetters id "false") : Derives params .atom [.ident id] (.bool false)
  | param {id p} (htrue : Text.sameLetters id "true" = false)
      (hfalse : Text.sameLetters id "false" = false)
      (h : params.find? (fun p => Text.sameLetters p.name id) = some p) :
      Derives params .atom [.ident id] (.param p)
  | paren {ts e} (h : Derives params .sum ts e) :
      Derives params .atom (.leftParen :: ts ++ [.rightParen]) (.paren e)
  | atom {ts e} (h : Derives params .atom ts e) : Derives params .unary ts e
  | neg {ts e} (h : Derives params .unary ts e) :
      Derives params .unary (.op .sub :: ts) (.neg e)
  | unary {ts e} (h : Derives params .unary ts e) : Derives params .product ts e
  | product {ts us a l r} (ha : a.isSum = Bool.false) (hl : Derives params .product ts l)
      (hr : Derives params .unary us r) :
      Derives params .product (ts ++ .op a.op :: us) (.arith a l r)
  | term {ts e} (h : Derives params .product ts e) : Derives params .sum ts e
  | sum {ts us a l r} (ha : a.isSum = Bool.true) (hl : Derives params .sum ts l)
      (hr : Derives params .product us r) :
      Derives params .sum (ts ++ .op a.op :: us) (.arith a l r)
  | concat {ts us l r} (hl : Derives params .sum ts l) (hr : Derives params .product us r) :
      Derives params .sum (ts ++ .op .concat :: us) (.concat l r)

namespace Expr

variable {params : List Param} {n : Nat} {ts rest : List Token} {l e : Expr} {out : Expr × List Token}

theorem expr_ok (h : expr params n ts = .ok out) : ∃ m e rest, n = m + 1 ∧
    term params m ts = .ok (e, rest) ∧ sums params m e rest = .ok out := by
  cases n with
  | zero => simp [expr] at h
  | succ m =>
      rw [expr] at h
      obtain ⟨⟨e, rest⟩, hterm, hsums⟩ := bind_ok h
      exact ⟨m, e, rest, rfl, hterm, hsums⟩

theorem term_ok (h : term params n ts = .ok out) : ∃ m e rest, n = m + 1 ∧
    unary params m ts = .ok (e, rest) ∧ products params m e rest = .ok out := by
  cases n with
  | zero => simp [term] at h
  | succ m =>
      rw [term] at h
      obtain ⟨⟨e, rest⟩, hunary, hproducts⟩ := bind_ok h
      exact ⟨m, e, rest, rfl, hunary, hproducts⟩

theorem sums_ok (h : sums params n l ts = .ok out) : out = (l, ts) ∨
    ∃ m o us r e rest, n = m + 1 ∧ ts = .op o :: us ∧ isSum o = true ∧
      term params m us = .ok (r, rest) ∧ combine o l r = .ok e ∧
        sums params m e rest = .ok out := by
  unfold sums at h
  split at h
  · next m o us =>
      split at h
      · next ho =>
          obtain ⟨⟨r, rest⟩, hterm, h⟩ := bind_ok h
          obtain ⟨e, hcombine, hsums⟩ := bind_ok h
          exact .inr ⟨m, o, us, r, e, rest, rfl, rfl, ho, hterm, hcombine, hsums⟩
      · exact .inl (Except.ok.inj h).symm
  · exact .inl (Except.ok.inj h).symm

theorem products_ok (h : products params n l ts = .ok out) : out = (l, ts) ∨
    ∃ m o us r e rest, n = m + 1 ∧ ts = .op o :: us ∧ isSum o = false ∧
      unary params m us = .ok (r, rest) ∧ combine o l r = .ok e ∧
        products params m e rest = .ok out := by
  unfold products at h
  split at h
  · next m o us =>
      split at h
      · exact .inl (Except.ok.inj h).symm
      · next ho =>
          obtain ⟨⟨r, rest⟩, hunary, h⟩ := bind_ok h
          obtain ⟨e, hcombine, hproducts⟩ := bind_ok h
          refine .inr ⟨m, o, us, r, e, rest, rfl, rfl, ?_, hunary, hcombine, hproducts⟩
          simpa using ho
  · exact .inl (Except.ok.inj h).symm

theorem negate_ok {e' : Expr} (h : negate e = .ok e') : e' = neg e := by
  unfold negate at h
  split at h
  · exact (Except.ok.inj h).symm
  · simp at h

theorem unary_ok (h : unary params n ts = .ok out) :
    (∃ m us e rest, n = m + 1 ∧ ts = .op .sub :: us ∧ unary params m us = .ok (e, rest) ∧
      out = (neg e, rest)) ∨
    ∃ m, n = m + 1 ∧ primary params m ts = .ok out := by
  unfold unary at h
  split at h
  · simp at h
  · next m us =>
      obtain ⟨⟨e, rest⟩, hunary, h⟩ := bind_ok h
      obtain ⟨e', hnegate, h⟩ := bind_ok h
      obtain rfl := negate_ok hnegate
      exact .inl ⟨m, us, e, rest, rfl, rfl, hunary, (Except.ok.inj h).symm⟩
  · next m _ => exact .inr ⟨m, rfl, h⟩

theorem arith_ok {o : Op} {a : Arith} {r : Expr} (h : (match promoted l.type r.type with
      | some _ => .ok (arith a l r)
      | none => .error (.notNumeric o l.type r.type) : Except ExprFault Expr) = .ok e) :
    e = arith a l r := by
  split at h
  · exact (Except.ok.inj h).symm
  · cases h

theorem combine_ok {o : Op} {r : Expr} (h : combine o l r = .ok e) :
    o = .concat ∧ e = concat l r ∨ ∃ a : Arith, o = a.op ∧ e = arith a l r := by
  cases o with
  | concat => exact .inl ⟨rfl, (Except.ok.inj h).symm⟩
  | add => exact .inr ⟨.add, rfl, arith_ok h⟩
  | sub => exact .inr ⟨.sub, rfl, arith_ok h⟩
  | mul => exact .inr ⟨.mul, rfl, arith_ok h⟩
  | div => exact .inr ⟨.div, rfl, arith_ok h⟩
  | rem => exact .inr ⟨.rem, rfl, arith_ok h⟩

theorem combine_arith {a : Arith} {r e' : Expr} (h : combine a.op l r = .ok e') :
    e' = arith a l r := by
  rcases combine_ok h with ⟨hop, -⟩ | ⟨b, hop, rfl⟩
  · cases a <;> simp [Arith.op] at hop
  · obtain rfl : a = b := by cases a <;> cases b <;> simp [Arith.op] at hop ⊢
    rfl

theorem derives_number {digits : String} :
    Derives params .atom [.number digits] e ↔ ofNumber digits = .ok e := by
  constructor
  · intro h
    generalize htokens : [Token.number digits] = us at h
    cases h <;> simp at htokens
    · next hpoint hrange =>
        subst htokens
        rw [ofNumber, if_neg hpoint, if_pos hrange]
    · next hpoint =>
        subst htokens
        rw [ofNumber, if_pos hpoint]
  · intro h
    unfold ofNumber at h
    split at h
    · next hpoint => exact Except.ok.inj h ▸ .decimal hpoint
    · next hpoint =>
        simp only at h
        split at h
        · next hrange => exact Except.ok.inj h ▸ .int hpoint hrange
        · simp at h

theorem derives_ident {id : String} :
    Derives params .atom [.ident id] e ↔ ofIdent params id = .ok e := by
  constructor
  · intro h
    generalize htokens : [Token.ident id] = us at h
    cases h <;> simp at htokens
    · next htrue =>
        subst htokens
        rw [ofIdent, if_pos htrue]
    · next hfalse =>
        subst htokens
        have htrue : ¬ Text.sameLetters id "true" = true := by
          simp only [Text.sameLetters, beq_iff_eq] at hfalse ⊢
          rw [hfalse]
          decide
        rw [ofIdent, if_neg htrue, if_pos hfalse]
    · next htrue hfalse hfind =>
        subst htokens
        rw [ofIdent, if_neg (by simp [htrue]), if_neg (by simp [hfalse]), hfind]
  · intro h
    unfold ofIdent at h
    split at h
    · next htrue => exact Except.ok.inj h ▸ .true htrue
    · next htrue =>
        split at h
        · next hfalse => exact Except.ok.inj h ▸ .false hfalse
        · next hfalse =>
            split at h
            · next hfind =>
                exact Except.ok.inj h ▸ .param (by simpa using htrue) (by simpa using hfalse) hfind
            · simp at h

def leaf (params : List Param) : Token → Except ExprFault Expr
  | .number digits => ofNumber digits
  | .str s => .ok (str s)
  | .ident id => ofIdent params id
  | t => .error (.unexpectedToken t)

theorem derives_leaf {t : Token} : Derives params .atom [t] e ↔ leaf params t = .ok e := by
  cases t with
  | number digits => exact derives_number
  | ident id => exact derives_ident
  | str s =>
      constructor
      · intro h
        generalize htokens : [Token.str s] = us at h
        cases h <;> simp at htokens
        subst htokens
        rfl
      · intro h
        exact Except.ok.inj h ▸ .str s
  | leftParen | rightParen | comma | op =>
      refine ⟨fun h => ?_, fun h => by simp [leaf] at h⟩
      generalize htokens : [_] = us at h
      cases h <;> simp at htokens

theorem primary_ok (h : primary params n ts = .ok out) :
    (∃ m us e rest, n = m + 1 ∧ ts = .leftParen :: us ∧
      expr params m us = .ok (e, .rightParen :: rest) ∧ out = (paren e, rest)) ∨
    ∃ t e rest, ts = t :: rest ∧ leaf params t = .ok e ∧ out = (e, rest) := by
  unfold primary at h
  split at h
  · next m us =>
      obtain ⟨⟨e, rest⟩, hexpr, h⟩ := bind_ok h
      split at h
      · next e' rest' he =>
          obtain ⟨rfl, rfl⟩ := Prod.mk.inj he
          exact .inl ⟨m, us, e, rest', rfl, rfl, hexpr, (Except.ok.inj h).symm⟩
      · simp [throw, throwThe, MonadExceptOf.throw] at h
  · next digits rest =>
      obtain ⟨e, hnumber, h⟩ := bind_ok h
      exact .inr ⟨_, e, rest, rfl, hnumber, (Except.ok.inj h).symm⟩
  · next s rest => exact .inr ⟨_, str s, rest, rfl, rfl, (Except.ok.inj h).symm⟩
  · next id rest =>
      obtain ⟨e, hident, h⟩ := bind_ok h
      exact .inr ⟨_, e, rest, rfl, hident, (Except.ok.inj h).symm⟩
  · simp at h
  · simp at h

/-- What each part of the parser has read is derived, together with what was read before it. -/
structure Sound (params : List Param) (n : Nat) : Prop where
  expr : ∀ {ts e rest}, expr params n ts = .ok (e, rest) →
    ∃ us, ts = us ++ rest ∧ Derives params .sum us e
  sums : ∀ {before l ts e rest}, Derives params .sum before l →
    sums params n l ts = .ok (e, rest) →
      ∃ us, ts = us ++ rest ∧ Derives params .sum (before ++ us) e
  term : ∀ {ts e rest}, term params n ts = .ok (e, rest) →
    ∃ us, ts = us ++ rest ∧ Derives params .product us e
  products : ∀ {before l ts e rest}, Derives params .product before l →
    products params n l ts = .ok (e, rest) →
      ∃ us, ts = us ++ rest ∧ Derives params .product (before ++ us) e
  unary : ∀ {ts e rest}, unary params n ts = .ok (e, rest) →
    ∃ us, ts = us ++ rest ∧ Derives params .unary us e
  primary : ∀ {ts e rest}, primary params n ts = .ok (e, rest) →
    ∃ us, ts = us ++ rest ∧ Derives params .atom us e

theorem derives_sums {before us : List Token} {r : Expr} {o : Op} (hl : Derives params .sum before l)
    (ho : isSum o = true) (hr : Derives params .product us r) (h : combine o l r = .ok e) :
    Derives params .sum (before ++ .op o :: us) e := by
  rcases combine_ok h with ⟨rfl, rfl⟩ | ⟨a, rfl, rfl⟩
  · exact .concat hl hr
  · exact .sum ho hl hr

theorem derives_products {before us : List Token} {r : Expr} {o : Op}
    (hl : Derives params .product before l) (ho : isSum o = false) (hr : Derives params .unary us r)
    (h : combine o l r = .ok e) : Derives params .product (before ++ .op o :: us) e := by
  rcases combine_ok h with ⟨rfl, -⟩ | ⟨a, rfl, rfl⟩
  · simp [isSum] at ho
  · exact .product ho hl hr

theorem sound (params : List Param) (n : Nat) : Sound params n := by
  induction n using Nat.strongRecOn with
  | ind n ih =>
      refine ⟨fun h => ?_, fun hl h => ?_, fun h => ?_, fun hl h => ?_, fun h => ?_, fun h => ?_⟩
      · obtain ⟨m, l, rest', rfl, hterm, hsums⟩ := expr_ok h
        have hm := ih m (Nat.lt_succ_self m)
        obtain ⟨us, rfl, hl⟩ := hm.term hterm
        obtain ⟨vs, rfl, he⟩ := hm.sums (.term hl) hsums
        exact ⟨us ++ vs, by simp, he⟩
      · rcases sums_ok h with h | ⟨m, o, us, r, e', rest', rfl, rfl, ho, hterm, hcombine, hsums⟩
        · obtain ⟨rfl, rfl⟩ := Prod.mk.inj h
          exact ⟨[], rfl, by simpa using hl⟩
        · have hm := ih m (Nat.lt_succ_self m)
          obtain ⟨vs, rfl, hr⟩ := hm.term hterm
          obtain ⟨ws, rfl, he⟩ := hm.sums (derives_sums hl ho hr hcombine) hsums
          exact ⟨.op o :: vs ++ ws, by simp, by simpa using he⟩
      · obtain ⟨m, l, rest', rfl, hunary, hproducts⟩ := term_ok h
        have hm := ih m (Nat.lt_succ_self m)
        obtain ⟨us, rfl, hl⟩ := hm.unary hunary
        obtain ⟨vs, rfl, he⟩ := hm.products (.unary hl) hproducts
        exact ⟨us ++ vs, by simp, he⟩
      · rcases products_ok h with h |
          ⟨m, o, us, r, e', rest', rfl, rfl, ho, hunary, hcombine, hproducts⟩
        · obtain ⟨rfl, rfl⟩ := Prod.mk.inj h
          exact ⟨[], rfl, by simpa using hl⟩
        · have hm := ih m (Nat.lt_succ_self m)
          obtain ⟨vs, rfl, hr⟩ := hm.unary hunary
          obtain ⟨ws, rfl, he⟩ := hm.products (derives_products hl ho hr hcombine) hproducts
          exact ⟨.op o :: vs ++ ws, by simp, by simpa using he⟩
      · rcases unary_ok h with ⟨m, us, e', rest', rfl, rfl, hunary, hout⟩ | ⟨m, rfl, hprimary⟩
        · obtain ⟨rfl, rfl⟩ := Prod.mk.inj hout
          obtain ⟨vs, rfl, he⟩ := (ih m (Nat.lt_succ_self m)).unary hunary
          exact ⟨.op .sub :: vs, rfl, .neg he⟩
        · obtain ⟨us, rfl, he⟩ := (ih m (Nat.lt_succ_self m)).primary hprimary
          exact ⟨us, rfl, .atom he⟩
      · rcases primary_ok h with ⟨m, us, e', rest', rfl, rfl, hexpr, hout⟩ |
          ⟨t, e', rest', rfl, hleaf, hout⟩
        · obtain ⟨rfl, rfl⟩ := Prod.mk.inj hout
          obtain ⟨vs, rfl, he⟩ := (ih m (Nat.lt_succ_self m)).expr hexpr
          exact ⟨.leftParen :: vs ++ [.rightParen], by simp, .paren he⟩
        · obtain ⟨rfl, rfl⟩ := Prod.mk.inj hout
          exact ⟨[t], rfl, derives_leaf.mpr hleaf⟩

def EndsProduct (rest : List Token) : Prop := ∀ o, rest.head? = some (.op o) → isSum o = true

theorem products_of_ends (h : EndsProduct rest) (n : Nat) (l : Expr) :
    products params n l rest = .ok (l, rest) := by
  unfold products
  split
  · next m o us =>
      have ho : isSum o = true := h o rfl
      rw [if_pos ho]
  · rfl

theorem sums_of_ends (h : rest.head? = none ∨ rest.head? = some .rightParen) (n : Nat) (l : Expr) :
    sums params n l rest = .ok (l, rest) := by
  unfold sums
  split
  · simp at h
  · rfl

theorem head_of_atom {params : List Param} {ts : List Token} {e : Expr}
    (h : Derives params .atom ts e) (rest : List Token) :
    (ts ++ rest).head? ≠ some (.op .sub) := by
  cases h <;> simp

/-- An expression with its operands checked the way a parser checks them, part by part. -/
def checked : Expr → Except ExprFault Expr
  | paren e => do return paren (← e.checked)
  | neg e => do negate (← e.checked)
  | arith a l r => do
    let l ← l.checked
    let r ← r.checked
    combine a.op l r
  | concat l r => do
    let l ← l.checked
    let r ← r.checked
    combine .concat l r
  | e => .ok e

/-- Where the grammar derives an expression from the tokens that come first, a parser has checked
that expression when it has read those tokens. The fuel is enough for all tokens. -/
def Reads (params : List Param) (ts : List Token) (e : Expr) : Level → Prop
  -- A factor behind the sum would belong to its last term.
  | .sum => ∀ n rest, EndsProduct rest → 4 * (ts ++ rest).length + 4 ≤ n →
    ∃ m, 4 * rest.length ≤ m ∧
      expr params n (ts ++ rest) = e.checked >>= fun e => sums params m e rest
  | .product => ∀ n rest, 4 * (ts ++ rest).length + 3 ≤ n →
    ∃ m, 4 * rest.length ≤ m ∧
      term params n (ts ++ rest) = e.checked >>= fun e => products params m e rest
  | .unary => ∀ n rest, 4 * (ts ++ rest).length + 2 ≤ n →
    unary params n (ts ++ rest) = e.checked >>= fun e => .ok (e, rest)
  | .atom => ∀ n rest, 4 * (ts ++ rest).length + 1 ≤ n →
    primary params n (ts ++ rest) = e.checked >>= fun e => .ok (e, rest)

theorem primary_leaf {t : Token} (h : leaf params t = .ok e) (n : Nat) (rest : List Token) :
    primary params n (t :: rest) = .ok (e, rest) := by
  cases t with
  | number | str | ident =>
      simp only [leaf] at h
      cases n <;> simp [primary, h, bind, Except.bind, pure, Except.pure] <;> exact Except.ok.inj h
  | leftParen | rightParen | comma | op => cases h

theorem reads_leaf {t : Token} (h : leaf params t = .ok e) (hchecked : e.checked = .ok e) :
    Reads params [t] e .atom := by
  intro n rest _
  rw [hchecked]
  exact primary_leaf h n rest

theorem reads_paren (h : Reads params ts e .sum) :
    Reads params (.leftParen :: ts ++ [.rightParen]) (.paren e) .atom := by
  intro n rest hfuel
  simp only [List.length_append, List.length_cons, List.length_nil] at hfuel
  obtain ⟨m, rfl⟩ : ∃ m, n = m + 1 := ⟨n - 1, by omega⟩
  have hends : EndsProduct (.rightParen :: rest) := by simp [EndsProduct]
  obtain ⟨k, -, hexpr⟩ := h m (.rightParen :: rest) hends (by simp; omega)
  simp only [List.cons_append, List.append_assoc, List.nil_append, primary, hexpr, checked]
  cases e.checked with
  | error f => rfl
  | ok e' => simp [sums_of_ends, bind, Except.bind, pure, Except.pure]

theorem reads_neg (h : Reads params ts e .unary) :
    Reads params (.op .sub :: ts) (.neg e) .unary := by
  intro n rest hfuel
  simp only [List.length_append, List.length_cons] at hfuel
  obtain ⟨m, rfl⟩ : ∃ m, n = m + 1 := ⟨n - 1, by omega⟩
  have hunary := h m rest (by simp; omega)
  simp only [List.cons_append, unary, hunary, checked, bind_assoc]
  rfl

theorem unary_eq_primary (h : ts.head? ≠ some (.op .sub)) (n : Nat) :
    unary params (n + 1) ts = primary params n ts := by
  unfold unary
  split
  · contradiction
  · simp at h
  · next he _ => rw [Nat.succ.inj he]

theorem reads_unary (hhead : ∀ rest, (ts ++ rest).head? ≠ some (.op .sub))
    (h : Reads params ts e .atom) : Reads params ts e .unary := by
  intro n rest hfuel
  obtain ⟨m, rfl⟩ : ∃ m, n = m + 1 := ⟨n - 1, by omega⟩
  rw [unary_eq_primary (hhead rest)]
  exact h m rest (by omega)

theorem reads_product (h : Reads params ts e .unary) : Reads params ts e .product := by
  intro n rest hfuel
  obtain ⟨m, rfl⟩ : ∃ m, n = m + 1 := ⟨n - 1, by omega⟩
  refine ⟨m, by simp only [List.length_append] at hfuel; omega, ?_⟩
  rw [term, h m rest (by omega), bind_assoc]
  rfl

theorem reads_sum (h : Reads params ts e .product) : Reads params ts e .sum := by
  intro n rest hends hfuel
  obtain ⟨m, rfl⟩ : ∃ m, n = m + 1 := ⟨n - 1, by omega⟩
  obtain ⟨k, -, hterm⟩ := h m rest (by omega)
  refine ⟨m, by simp only [List.length_append] at hfuel; omega, ?_⟩
  simp only [expr, hterm, products_of_ends hends, bind_assoc]
  rfl

theorem reads_products {us : List Token} {o : Op} {r : Expr} (ho : isSum o = false)
    (hl : Reads params ts l .product) (hr : Reads params us r .unary)
    (he : e.checked = (do combine o (← l.checked) (← r.checked))) :
    Reads params (ts ++ .op o :: us) e .product := by
  intro n rest hfuel
  rw [List.append_assoc] at hfuel ⊢
  obtain ⟨m, hm, hterm⟩ := hl n _ hfuel
  simp only [List.cons_append, List.length_cons, List.length_append] at hm
  obtain ⟨k, rfl⟩ : ∃ k, m = k + 1 := ⟨m - 1, by omega⟩
  have hunary := hr k rest (by simp only [List.length_append]; omega)
  refine ⟨k, by omega, ?_⟩
  rw [hterm, he]
  simp only [bind_assoc, List.cons_append, products, ho, hunary]
  rfl

theorem reads_sums {us : List Token} {o : Op} {r : Expr} (ho : isSum o = true)
    (hl : Reads params ts l .sum) (hr : Reads params us r .product)
    (he : e.checked = (do combine o (← l.checked) (← r.checked))) :
    Reads params (ts ++ .op o :: us) e .sum := by
  intro n rest hends hfuel
  rw [List.append_assoc] at hfuel ⊢
  have hends' : EndsProduct (.op o :: us ++ rest) := by
    intro o' ho'
    obtain rfl : o = o' := by simpa using ho'
    exact ho
  obtain ⟨m, hm, hexpr⟩ := hl n _ hends' hfuel
  simp only [List.cons_append, List.length_cons, List.length_append] at hm
  obtain ⟨k, rfl⟩ : ∃ k, m = k + 1 := ⟨m - 1, by omega⟩
  obtain ⟨j, -, hterm⟩ := hr k rest (by simp only [List.length_append]; omega)
  refine ⟨k, by omega, ?_⟩
  rw [hexpr, he]
  simp only [bind_assoc, List.cons_append, sums, ho, hterm, products_of_ends hends]
  rfl

theorem reads_of_derives {level : Level} (h : Derives params level ts e) :
    Reads params ts e level := by
  induction h with
  | int hpoint hrange => exact reads_leaf (derives_leaf.mp (.int hpoint hrange)) rfl
  | decimal hpoint => exact reads_leaf (derives_leaf.mp (.decimal hpoint)) rfl
  | str s => exact reads_leaf rfl rfl
  | true h => exact reads_leaf (derives_leaf.mp (.true h)) rfl
  | false h => exact reads_leaf (derives_leaf.mp (.false h)) rfl
  | param htrue hfalse h => exact reads_leaf (derives_leaf.mp (.param htrue hfalse h)) rfl
  | paren _ ih => exact reads_paren ih
  | atom h ih => exact reads_unary (head_of_atom h) ih
  | neg _ ih => exact reads_neg ih
  | unary _ ih => exact reads_product ih
  | product ha _ _ ihl ihr => exact reads_products ha ihl ihr rfl
  | term _ ih => exact reads_sum ih
  | sum ha _ _ ihl ihr => exact reads_sums ha ihl ihr rfl
  | concat _ _ ihl ihr => exact reads_sums rfl ihl ihr rfl

theorem parse_of_derives (h : Derives params .sum ts e) :
    parse params ts = e.checked >>= fun e => .ok (e, []) := by
  obtain ⟨m, -, hexpr⟩ := reads_of_derives h (fuelFor ts) [] (by simp [EndsProduct])
    (by simp [fuelFor])
  rw [List.append_nil] at hexpr
  simp only [parse, hexpr, sums_of_ends (.inl (List.head?_nil))]

theorem checked_ok {e' : Expr} (h : e.checked = .ok e') : e' = e := by
  induction e generalizing e' with
  | int | decimal | str | bool | param => exact (Except.ok.inj h).symm
  | paren e ih =>
      obtain ⟨inner, hinner, h⟩ := bind_ok h
      rw [← ih hinner]
      exact (Except.ok.inj h).symm
  | neg e ih =>
      obtain ⟨inner, hinner, h⟩ := bind_ok h
      rw [← ih hinner]
      exact negate_ok h
  | arith a l r ihl ihr =>
      obtain ⟨left, hleft, h⟩ := bind_ok h
      obtain ⟨right, hright, h⟩ := bind_ok h
      rw [← ihl hleft, ← ihr hright]
      exact combine_arith h
  | concat l r ihl ihr =>
      obtain ⟨left, hleft, h⟩ := bind_ok h
      obtain ⟨right, hright, h⟩ := bind_ok h
      rw [← ihl hleft, ← ihr hright]
      exact (Except.ok.inj h).symm

/-- A parser that reads all tokens gives the one expression that the grammar derives from them. -/
theorem derives_iff_of_parse (h : parse params ts = .ok (e, [])) (e' : Expr) :
    Derives params .sum ts e' ↔ e' = e := by
  constructor
  · intro hderives
    rw [parse_of_derives hderives] at h
    obtain ⟨e'', hchecked, h⟩ := bind_ok h
    rw [← checked_ok hchecked]
    exact (Prod.mk.inj (Except.ok.inj h)).1
  · rintro rfl
    obtain ⟨us, hts, hderives⟩ := (sound params _).expr h
    rw [hts, List.append_nil]
    exact hderives

end Expr

end FunctionJar.Sql
