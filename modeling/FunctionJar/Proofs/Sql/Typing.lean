import FunctionJar.Proofs.Sql.Grammar

namespace FunctionJar.Sql

def SqlType.Numeric (t : SqlType) : Prop := ∃ p, t.prim? = some p

/-- A whole number is as wide as it needs to be, a result as wide as the wider operand. -/
inductive Expr.HasType : Expr → SqlType → Prop
  | int {v} (h : v < Nat.pow 2 31) : HasType (.int v) .int
  | bigint {v} (h : ¬ v < Nat.pow 2 31) : HasType (.int v) .bigint
  | decimal (digits) : HasType (.decimal digits) .double
  | str (s) : HasType (.str s) .string
  | bool (b) : HasType (.bool b) .boolean
  | param (p) : HasType (.param p) p.type
  | paren {e t} (h : HasType e t) : HasType (.paren e) t
  | neg {e t} (h : HasType e t) (hnumeric : t.Numeric) : HasType (.neg e) t
  | arith {a l r s t p q} (hl : HasType l s) (hr : HasType r t) (hs : s.prim? = some p)
      (ht : t.prim? = some q) : HasType (.arith a l r) (.ofPrim (p.promote q))
  | concat {l r s t} (hl : HasType l s) (hr : HasType r t) : HasType (.concat l r) .string

namespace Expr

variable {e l r : Expr} {s t : SqlType}

theorem promoted_eq_some {p q : Java.Prim} (hs : s.prim? = some p) (ht : t.prim? = some q) :
    promoted s t = some (.ofPrim (p.promote q)) := by
  simp [promoted, hs, ht]

theorem HasType.type_eq (h : e.HasType t) : e.type = t := by
  induction h with
  | int h | bigint h => simp [type, h]
  | decimal | str | bool | param | concat => rfl
  | paren _ ih | neg _ _ ih => exact ih
  | arith _ _ hs ht ihl ihr => rw [type, ihl, ihr, promoted_eq_some hs ht, Option.getD_some]

theorem hasType_int (v : Nat) : ∃ t, HasType (.int v) t := by
  by_cases h : v < Nat.pow 2 31
  · exact ⟨.int, .int h⟩
  · exact ⟨.bigint, .bigint h⟩

theorem negate_eq (h : e.HasType t) (hnumeric : t.Numeric) : negate e = .ok (neg e) := by
  obtain ⟨p, hp⟩ := hnumeric
  rw [negate, h.type_eq, hp]

theorem numeric_of_negate {e' : Expr} (h : negate e = .ok e') : e.type.Numeric := by
  unfold negate at h
  split at h
  · next p hp => exact ⟨p, hp⟩
  · cases h

theorem combine_eq {a : Arith} {p q : Java.Prim} (hl : l.HasType s) (hr : r.HasType t)
    (hs : s.prim? = some p) (ht : t.prim? = some q) : combine a.op l r = .ok (arith a l r) := by
  have hpromoted := promoted_eq_some hs ht
  rw [← hl.type_eq, ← hr.type_eq] at hpromoted
  cases a <;> simp only [combine, Arith.op, hpromoted]

theorem numeric_of_combine {a : Arith} {e' : Expr} (h : combine a.op l r = .ok e') :
    l.type.Numeric ∧ r.type.Numeric := by
  have hpromoted : ∃ t, promoted l.type r.type = some t := by
    cases hp : promoted l.type r.type with
    | some t => exact ⟨t, rfl⟩
    | none => cases a <;> simp [combine, Arith.op, hp] at h
  obtain ⟨t, hpromoted⟩ := hpromoted
  obtain ⟨p, hp, hpromoted⟩ := Option.bind_eq_some_iff.mp hpromoted
  obtain ⟨q, hq, -⟩ := Option.bind_eq_some_iff.mp hpromoted
  exact ⟨⟨p, hp⟩, ⟨q, hq⟩⟩

theorem checked_of_hasType (h : e.HasType t) : e.checked = .ok e := by
  induction h with
  | int | bigint | decimal | str | bool | param => rfl
  | paren _ ih => rw [checked, ih]; rfl
  | neg h hnumeric ih =>
      rw [checked, ih]
      exact negate_eq h hnumeric
  | arith hl hr hs ht ihl ihr =>
      rw [checked, ihl, ihr]
      exact combine_eq hl hr hs ht
  | concat _ _ ihl ihr => rw [checked, ihl, ihr]; rfl

theorem exists_type_of_checked {e' : Expr} (h : e.checked = .ok e') : ∃ t, e.HasType t := by
  induction e generalizing e' with
  | int v => exact hasType_int v
  | decimal digits => exact ⟨_, .decimal digits⟩
  | str s => exact ⟨_, .str s⟩
  | bool b => exact ⟨_, .bool b⟩
  | param p => exact ⟨_, .param p⟩
  | paren e ih =>
      obtain ⟨inner, hinner, -⟩ := bind_ok h
      obtain ⟨t, ht⟩ := ih hinner
      exact ⟨t, .paren ht⟩
  | neg e ih =>
      obtain ⟨inner, hinner, h⟩ := bind_ok h
      obtain ⟨t, ht⟩ := ih hinner
      rw [checked_ok hinner] at h
      exact ⟨t, .neg ht (ht.type_eq ▸ numeric_of_negate h)⟩
  | arith a l r ihl ihr =>
      obtain ⟨left, hleft, h⟩ := bind_ok h
      obtain ⟨right, hright, h⟩ := bind_ok h
      obtain ⟨s, hs⟩ := ihl hleft
      obtain ⟨t, ht⟩ := ihr hright
      rw [checked_ok hleft, checked_ok hright] at h
      obtain ⟨⟨p, hp⟩, ⟨q, hq⟩⟩ := numeric_of_combine h
      rw [hs.type_eq] at hp
      rw [ht.type_eq] at hq
      exact ⟨_, .arith hs ht hp hq⟩
  | concat l r ihl ihr =>
      obtain ⟨left, hleft, h⟩ := bind_ok h
      obtain ⟨right, hright, -⟩ := bind_ok h
      obtain ⟨s, hs⟩ := ihl hleft
      obtain ⟨t, ht⟩ := ihr hright
      exact ⟨_, .concat hs ht⟩

/-- The parser takes exactly the bodies that the grammar derives and that have a type. -/
theorem parse_eq_ok_iff {params : List Param} {ts : List Token} :
    parse params ts = .ok (e, []) ↔ Derives params .sum ts e ∧ ∃ t, e.HasType t := by
  constructor
  · intro h
    have hderives := (derives_iff_of_parse h e).mpr rfl
    rw [parse_of_derives hderives] at h
    obtain ⟨e', hchecked, -⟩ := bind_ok h
    exact ⟨hderives, exists_type_of_checked hchecked⟩
  · rintro ⟨hderives, t, ht⟩
    rw [parse_of_derives hderives, checked_of_hasType ht]
    rfl

end Expr

end FunctionJar.Sql
