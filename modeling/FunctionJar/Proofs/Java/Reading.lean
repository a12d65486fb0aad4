import FunctionJar.Proofs.Java.Token
import FunctionJar.Proofs.Text
import FunctionJar.Text.Decimal

namespace FunctionJar.Java

inductive Tree
  | int (value : Nat)
  | long (value : Nat)
  | double (digits : List Char)
  | string (raw : List Char)
  | bool (value : Bool)
  | name (id : String)
  | neg (operand : Tree)
  | cast (prim : Prim) (operand : Tree)
  | binary (op : BinOp) (left right : Tree)
  | call (receiver : Tree) (method : String)
  | callWith (receiver : Tree) (method : String) (argument : Tree)
  deriving DecidableEq, Repr

namespace Tree

def valueOf (t : Tree) : Tree := callWith (name "String") "valueOf" t

def isPlain (digits : List Char) : Bool :=
  digits.all Char.isDigit && (digits.length == 1 || 1 < digits.length && digits.head? != some '0')

def ofNumber? (text : List Char) : Option Tree :=
  if isPlain text then
    if Text.natOfDigits text < Nat.pow 2 31 then some (int (Text.natOfDigits text)) else none
  else if text.getLast? = some 'L' ∧ isPlain text.dropLast then
    if Text.natOfDigits text.dropLast < Nat.pow 2 63 then
      some (long (Text.natOfDigits text.dropLast))
    else none
  else
    match Text.splitAt '.' text with
    | [whole, part] =>
      if whole ≠ [] ∧ part ≠ [] ∧ whole.all Char.isDigit ∧ part.all Char.isDigit then
        some (double text)
      else none
    | _ => none

def ofWord? (w : String) : Option Tree :=
  if w = "true" then some (bool true)
  else if w = "false" then some (bool false)
  else if w ∈ ClassName.reserved then none
  else some (name w)

end Tree

def Prim.ofName? (w : String) : Option Prim :=
  [Prim.int, .long, .float, .double].find? fun p => p.name == w

def BinOp.ofSymbol? (c : Char) : Option BinOp :=
  [BinOp.add, .sub, .mul, .div, .rem].find? fun op => op.symbol == c

def BinOp.isSum : BinOp → Bool
  | add | sub => true
  | mul | div | rem => false

inductive Sign
  | minus
  | cast (p : Prim)
  deriving DecidableEq, Repr

def Sign.on : Sign → Tree → Tree
  | minus, t => .neg t
  | cast p, t => .cast p t

/-- What has been read before an operand: the left side of a sum, then that of a product, then the
signs, the last one first. -/
structure Pending where
  sum : Option (Tree × BinOp)
  product : Option (Tree × BinOp)
  signs : List Sign
  deriving DecidableEq, Repr

namespace Pending

def empty : Pending := ⟨none, none, []⟩

def sign (p : Pending) (s : Sign) : Pending := { p with signs := s :: p.signs }

def joined (left : Option (Tree × BinOp)) (t : Tree) : Tree :=
  match left with
  | none => t
  | some (l, op) => .binary op l t

def unary (p : Pending) (t : Tree) : Tree := p.signs.foldl (fun t s => s.on t) t

def factor (p : Pending) (t : Tree) : Tree := joined p.product (p.unary t)

def total (p : Pending) (t : Tree) : Tree := joined p.sum (p.factor t)

/-- An operator behind the operand `t` takes all to its left that binds as close as itself. -/
def operator (p : Pending) (t : Tree) (op : BinOp) : Pending :=
  if op.isSum then ⟨some (p.total t, op), none, []⟩ else ⟨p.sum, some (p.factor t, op), []⟩

end Pending

inductive Opened
  | group
  | argument (receiver : Tree) (method : String)
  deriving DecidableEq, Repr

/-- Where the reading of an expression is, with all that is open around it. -/
structure Context where
  pending : Pending
  outer : List (Opened × Pending)
  deriving DecidableEq, Repr

namespace Context

def top : Context := ⟨.empty, []⟩

def sign (c : Context) (s : Sign) : Context := { c with pending := c.pending.sign s }

def operator (c : Context) (t : Tree) (op : BinOp) : Context :=
  { c with pending := c.pending.operator t op }

def inside (c : Context) (o : Opened) : Context := ⟨.empty, (o, c.pending) :: c.outer⟩

end Context

inductive Reading
  | operand (c : Context)
  | opened (c : Context)
  | typed (p : Prim) (c : Context)
  | behind (t : Tree) (c : Context)
  | point (t : Tree) (c : Context)
  | method (t : Tree) (m : String) (c : Context)
  | arguments (t : Tree) (m : String) (c : Context)
  deriving DecidableEq, Repr

namespace Reading

def operandStep (c : Context) : Token → Option Reading
  | .word w => (Tree.ofWord? w).map (behind · c)
  | .number text => (Tree.ofNumber? text).map (behind · c)
  | .string raw => some (behind (.string raw) c)
  | .sign '-' => some (operand (c.sign .minus))
  | .sign '(' => some (opened c)
  | .sign _ => none

def close (t : Tree) (c : Context) : Option Reading :=
  match c.outer with
  | [] => none
  | (.group, p) :: outer => some (behind (c.pending.total t) ⟨p, outer⟩)
  | (.argument receiver m, p) :: outer =>
    some (behind (.callWith receiver m (c.pending.total t)) ⟨p, outer⟩)

def step : Reading → Token → Option Reading
  | operand c, tok => operandStep c tok
  | opened c, .word w =>
    match Prim.ofName? w with
    | some p => some (typed p c)
    | none => operandStep (c.inside .group) (.word w)
  | opened c, tok => operandStep (c.inside .group) tok
  | typed p c, .sign ')' => some (operand (c.sign (.cast p)))
  | behind t c, .sign '.' => some (point t c)
  | behind t c, .sign ')' => close t c
  | behind t c, .sign s => (BinOp.ofSymbol? s).map fun op => operand (c.operator t op)
  | point t c, .word m => if m ∈ ClassName.reserved then none else some (method t m c)
  | method t m c, .sign '(' => some (arguments t m c)
  | arguments t m c, .sign ')' => some (behind (.call t m) c)
  | arguments t m c, tok => operandStep (c.inside (.argument t m)) tok
  | _, _ => none

def finish : Reading → Option Tree
  | behind t c => if c.outer = [] then some (c.pending.total t) else none
  | _ => none

end Reading

def readFrom (r : Reading) : List Token → Option Tree
  | [] => r.finish
  | tok :: rest => (r.step tok).bind fun r' => readFrom r' rest

def read (text : List Char) : Option Tree := (lex text).bind (readFrom (.operand .top))

namespace Expr

def tree : Expr → Tree
  | int v => .int v
  | long v => .long v
  | double d => .double d.toList
  | string s => .string (s.toList.flatMap escapeChar)
  | bool b => .bool b
  | name id => .name id
  | paren e => e.tree
  | neg e => .neg e.tree
  | binary op l r => .binary op l.tree r.tree
  | valueOf e => .valueOf e.tree
  | unbox p e => .call e.tree p.valueMethod
  | cast p e => .cast p e.tree

def opRank (op : BinOp) : Nat := if op.isSum then 0 else 1

def rank : Expr → Nat
  | binary op _ _ => opRank op
  | neg _ | cast _ _ => 2
  | _ => 3

/-- Literals are in range, names may be names, and each operand binds as close as its place asks. -/
def Grouped : Expr → Prop
  | int v => v < Nat.pow 2 31
  | long v => v < Nat.pow 2 63
  | double d => IsDecimal d.toList
  | string _ | bool _ => True
  | name id => id ∉ ClassName.reserved
  | paren e | valueOf e => e.Grouped
  | neg e | cast _ e => 2 ≤ e.rank ∧ e.Grouped
  | binary op l r => opRank op ≤ l.rank ∧ opRank op < r.rank ∧ l.Grouped ∧ r.Grouped
  | unbox _ e => e.rank = 3 ∧ e.Grouped

end Expr

theorem isPlain_toString (v : Nat) : Tree.isPlain (toString v).toList = true := by
  have hall : (toString v).toList.all Char.isDigit = true :=
    List.all_eq_true.mpr fun c hc => Text.isDigit_of_mem_toString hc
  rw [Tree.isPlain, hall, Bool.true_and]
  rw [Text.toString_toList]
  by_cases hv : v = 0
  · subst hv
    rfl
  · have hlength : 0 < (Nat.toDigits 10 v).length := Nat.length_toDigits_pos
    have hhead := Text.head_toDigits (Nat.pos_of_ne_zero hv)
    by_cases hone : (Nat.toDigits 10 v).length = 1
    · simp [hone]
    · have htwo : 1 < (Nat.toDigits 10 v).length := by omega
      simp [hhead, htwo]

theorem ofNumber?_int {v : Nat} (h : v < Nat.pow 2 31) :
    Tree.ofNumber? (toString v).toList = some (.int v) := by
  rw [Tree.ofNumber?, if_pos (isPlain_toString v), Text.natOfDigits_toString, if_pos h]

theorem ofNumber?_long {v : Nat} (h : v < Nat.pow 2 63) :
    Tree.ofNumber? ((toString v).toList ++ ['L']) = some (.long v) := by
  have hplain : ¬ Tree.isPlain ((toString v).toList ++ ['L']) = true := by
    simp [Tree.isPlain]
  rw [Tree.ofNumber?, if_neg hplain, List.dropLast_concat,
    if_pos ⟨List.getLast?_concat, isPlain_toString v⟩, Text.natOfDigits_toString, if_pos h]

theorem ofNumber?_decimal {text : List Char} (h : IsDecimal text) :
    Tree.ofNumber? text = some (.double text) := by
  have hlong : text.getLast? ≠ some 'L' := fun hlast =>
    absurd (h.isDigit_last hlast) (by decide)
  obtain ⟨whole, part, rfl, hwhole, hpart, hdigits, hbehind⟩ := h
  have hplain : ¬ Tree.isPlain (whole ++ '.' :: part) = true := by
    simp [Tree.isPlain]
  rw [Tree.ofNumber?, if_neg hplain, if_neg fun hl => hlong hl.1,
    Text.splitAt_append, Text.splitAt_of_not_mem (point_not_mem hdigits),
    Text.splitAt_of_not_mem (point_not_mem hbehind)]
  have hall : whole.all Char.isDigit ∧ part.all Char.isDigit := by
    simp only [List.all_eq_true]
    exact ⟨hdigits, hbehind⟩
  exact if_pos ⟨hwhole, hpart, hall.1, hall.2⟩

/-- The tokens that an operand in parentheses may begin with. -/
def Token.leads : Token → Bool
  | .word w => (Prim.ofName? w).isNone
  | .sign c => c != ')'
  | _ => true

theorem ofName?_of_not_reserved {w : String} (h : w ∉ ClassName.reserved) :
    Prim.ofName? w = none := by
  have hprims : ∀ p ∈ [Prim.int, .long, .float, .double], p.name ∈ ClassName.reserved := by decide
  rw [Prim.ofName?, List.find?_eq_none]
  intro p hp he
  simp only [beq_iff_eq] at he
  exact h (he ▸ hprims p hp)

theorem Expr.Grouped.leads {e : Expr} (h : e.Grouped) :
    ∃ tok rest, e.tokens = tok :: rest ∧ tok.leads := by
  induction e with
  | int | long | double | string => exact ⟨_, [], rfl, rfl⟩
  | bool b => exact ⟨_, [], rfl, by cases b <;> decide⟩
  | name id =>
      simp only [Grouped] at h
      exact ⟨_, [], rfl, by simp [Token.leads, ofName?_of_not_reserved h]⟩
  | paren e => exact ⟨_, _, rfl, rfl⟩
  | neg e => exact ⟨_, _, rfl, rfl⟩
  | binary op l r ihl _ =>
      obtain ⟨tok, rest, hl, hlead⟩ := ihl h.2.2.1
      exact ⟨tok, rest ++ .sign op.symbol :: r.tokens, by simp [tokens, hl], hlead⟩
  | valueOf e => exact ⟨_, _, rfl, by decide⟩
  | unbox p e ih =>
      obtain ⟨tok, rest, he, hlead⟩ := ih h.2
      exact ⟨tok, rest ++ [.sign '.', .word p.valueMethod, .sign '(', .sign ')'],
        by simp [tokens, he], hlead⟩
  | cast p e => exact ⟨_, _, rfl, rfl⟩

theorem readFrom_opened {tok : Token} (h : tok.leads) (c : Context) (rest : List Token) :
    readFrom (.opened c) (tok :: rest) =
      readFrom (.operand (c.inside .group)) (tok :: rest) := by
  cases tok with
  | word w =>
      have hname : Prim.ofName? w = none := by simpa [Token.leads] using h
      simp only [readFrom, Reading.step, hname]
  | number | string | sign => rfl

theorem readFrom_arguments {tok : Token} (h : tok.leads) (t : Tree) (m : String) (c : Context)
    (rest : List Token) : readFrom (.arguments t m c) (tok :: rest) =
      readFrom (.operand (c.inside (.argument t m))) (tok :: rest) := by
  cases tok with
  | word | number | string => rfl
  | sign s =>
      have hs : s ≠ ')' := by simpa [Token.leads] using h
      simp only [readFrom]
      congr 1
      unfold Reading.step
      split <;> simp_all

/-- The tokens of an expression lead behind an operand that is the whole of it. -/
def ReadsAtom (e : Expr) : Prop :=
  ∀ c rest, readFrom (.operand c) (e.tokens ++ rest) = readFrom (.behind e.tree c) rest

/-- They lead behind an operand that is the whole of it with the signs before it. -/
def ReadsUnary (e : Expr) : Prop :=
  ∀ c rest, ∃ t signs, (Pending.unary ⟨c.pending.sum, c.pending.product, signs⟩ t =
      c.pending.unary e.tree) ∧
    readFrom (.operand c) (e.tokens ++ rest) =
      readFrom (.behind t ⟨⟨c.pending.sum, c.pending.product, signs⟩, c.outer⟩) rest

/-- They lead behind an operand that is the whole of it with the factors and signs before it. -/
def ReadsFactor (e : Expr) : Prop :=
  ∀ sum outer rest, ∃ t product signs, Pending.factor ⟨sum, product, signs⟩ t = e.tree ∧
    readFrom (.operand ⟨⟨sum, none, []⟩, outer⟩) (e.tokens ++ rest) =
      readFrom (.behind t ⟨⟨sum, product, signs⟩, outer⟩) rest

/-- They lead behind an operand that is the whole of it with all that is before it. -/
def ReadsTotal (e : Expr) : Prop :=
  ∀ outer rest, ∃ t p, Pending.total p t = e.tree ∧
    readFrom (.operand ⟨.empty, outer⟩) (e.tokens ++ rest) = readFrom (.behind t ⟨p, outer⟩) rest

theorem ReadsAtom.unary {e : Expr} (h : ReadsAtom e) : ReadsUnary e :=
  fun c rest => ⟨e.tree, c.pending.signs, rfl, h c rest⟩

theorem ReadsUnary.factor {e : Expr} (h : ReadsUnary e) : ReadsFactor e := by
  intro sum outer rest
  obtain ⟨t, signs, ht, hread⟩ := h ⟨⟨sum, none, []⟩, outer⟩ rest
  exact ⟨t, none, signs, ht, hread⟩

theorem ReadsFactor.total {e : Expr} (h : ReadsFactor e) : ReadsTotal e := by
  intro outer rest
  obtain ⟨t, product, signs, ht, hread⟩ := h none outer rest
  exact ⟨t, ⟨none, product, signs⟩, ht, hread⟩

/-- How an expression is read that binds as close as `rank` says. -/
def Reads (e : Expr) : Nat → Prop
  | 0 => ReadsTotal e
  | 1 => ReadsFactor e
  | 2 => ReadsUnary e
  | _ => ReadsAtom e

theorem Reads.pred {e : Expr} {n : Nat} (h : Reads e (n + 1)) : Reads e n := by
  match n, h with
  | 0, h => exact ReadsFactor.total h
  | 1, h => exact ReadsUnary.factor h
  | 2, h => exact ReadsAtom.unary h
  | _ + 3, h => exact h

theorem Reads.of_le {e : Expr} {m n : Nat} (h : Reads e n) (hle : m ≤ n) : Reads e m := by
  induction hle with
  | refl => exact h
  | step _ ih => exact ih h.pred

theorem ReadsTotal.close {e : Expr} (h : ReadsTotal e) (o : Opened) (c : Context)
    (rest : List Token) :
    ∃ t p, Pending.total p t = e.tree ∧
      readFrom (.operand (c.inside o)) (e.tokens ++ .sign ')' :: rest) =
        (Reading.close t ⟨p, (o, c.pending) :: c.outer⟩).bind fun r' => readFrom r' rest := by
  obtain ⟨t, p, ht, hread⟩ := h ((o, c.pending) :: c.outer) (.sign ')' :: rest)
  exact ⟨t, p, ht, hread⟩

theorem reads_paren {e : Expr} (h : e.Grouped) (htotal : ReadsTotal e) : ReadsAtom (.paren e) := by
  intro c rest
  obtain ⟨tok, ts, htokens, hlead⟩ := h.leads
  obtain ⟨t, p, ht, hread⟩ := htotal.close .group c rest
  have hopen : readFrom (.operand c) ((Expr.paren e).tokens ++ rest) =
      readFrom (.opened c) (e.tokens ++ .sign ')' :: rest) := by
    simp only [Expr.tokens, List.cons_append, List.append_assoc, List.nil_append]
    rfl
  rw [hopen, htokens, List.cons_append, readFrom_opened hlead, ← List.cons_append, ← htokens, hread]
  simp only [Reading.close, Option.bind_some, ht, Expr.tree]

theorem reads_valueOf {e : Expr} (h : e.Grouped) (htotal : ReadsTotal e) :
    ReadsAtom (.valueOf e) := by
  intro c rest
  obtain ⟨tok, ts, htokens, hlead⟩ := h.leads
  obtain ⟨t, p, ht, hread⟩ := htotal.close (.argument (.name "String") "valueOf") c rest
  have hopen : readFrom (.operand c) ((Expr.valueOf e).tokens ++ rest) =
      readFrom (.arguments (.name "String") "valueOf" c) (e.tokens ++ .sign ')' :: rest) := by
    simp only [Expr.tokens, List.cons_append, List.append_assoc, List.nil_append]
    rfl
  rw [hopen, htokens, List.cons_append, readFrom_arguments hlead, ← List.cons_append, ← htokens,
    hread]
  simp only [Reading.close, Option.bind_some, ht, Expr.tree, Tree.valueOf]

theorem reads_unbox {p : Prim} {e : Expr} (h : ReadsAtom e) : ReadsAtom (.unbox p e) := by
  intro c rest
  have hmethod : p.valueMethod ∉ ClassName.reserved := by cases p <;> decide
  have hcall : readFrom (.behind e.tree c)
      (.sign '.' :: .word p.valueMethod :: .sign '(' :: .sign ')' :: rest) =
        readFrom (.behind (.call e.tree p.valueMethod) c) rest := by
    simp only [readFrom, Reading.step, Option.bind_some, if_neg hmethod]
  simpa only [Expr.tokens, Expr.tree, List.append_assoc, List.cons_append, List.nil_append,
    h c] using hcall

theorem reads_sign {s : Sign} {e e' : Expr} (h : ReadsUnary e) (htree : e'.tree = s.on e.tree)
    (htokens : ∀ c rest, readFrom (.operand c) (e'.tokens ++ rest) =
      readFrom (.operand (c.sign s)) (e.tokens ++ rest)) : ReadsUnary e' := by
  intro c rest
  obtain ⟨t, signs, ht, hread⟩ := h (c.sign s) rest
  refine ⟨t, signs, ?_, (htokens c rest).trans hread⟩
  rw [htree]
  exact ht

theorem reads_neg {e : Expr} (h : ReadsUnary e) : ReadsUnary (.neg e) :=
  reads_sign (s := .minus) h rfl fun _ _ => rfl

theorem reads_cast {p : Prim} {e : Expr} (h : ReadsUnary e) : ReadsUnary (.cast p e) := by
  refine reads_sign (s := .cast p) h rfl fun c rest => ?_
  have hname : Prim.ofName? p.name = some p := by cases p <;> decide
  simp only [Expr.tokens, List.cons_append, List.nil_append, readFrom, Reading.step,
    Reading.operandStep, Option.bind_some, hname]

theorem step_operator (t : Tree) (c : Context) (op : BinOp) :
    Reading.step (.behind t c) (.sign op.symbol) = some (.operand (c.operator t op)) := by
  cases op <;> rfl

theorem readFrom_operator (t : Tree) (c : Context) (op : BinOp) (rest : List Token) :
    readFrom (.behind t c) (.sign op.symbol :: rest) =
      readFrom (.operand (c.operator t op)) rest := by
  rw [readFrom, step_operator, Option.bind_some]

theorem reads_product {op : BinOp} {l r : Expr} (hop : op.isSum = false) (hl : ReadsFactor l)
    (hr : ReadsUnary r) : ReadsFactor (.binary op l r) := by
  intro sum outer rest
  obtain ⟨t, product, signs, ht, hread⟩ := hl sum outer (.sign op.symbol :: (r.tokens ++ rest))
  obtain ⟨t', signs', ht', hread'⟩ := hr ⟨⟨sum, some (l.tree, op), []⟩, outer⟩ rest
  have hcontext : Context.operator ⟨⟨sum, product, signs⟩, outer⟩ t op =
      ⟨⟨sum, some (l.tree, op), []⟩, outer⟩ := by
    simp [Context.operator, Pending.operator, hop, ht]
  refine ⟨t', some (l.tree, op), signs', ?_, ?_⟩
  · rw [Pending.factor, Pending.joined, Expr.tree]
    exact congrArg (Tree.binary op l.tree) ht'
  · rw [Expr.tokens, List.append_assoc, List.cons_append, hread, readFrom_operator, hcontext, hread']

theorem reads_sum {op : BinOp} {l r : Expr} (hop : op.isSum = true) (hl : ReadsTotal l)
    (hr : ReadsFactor r) : ReadsTotal (.binary op l r) := by
  intro outer rest
  obtain ⟨t, p, ht, hread⟩ := hl outer (.sign op.symbol :: (r.tokens ++ rest))
  obtain ⟨t', product, signs, ht', hread'⟩ := hr (some (l.tree, op)) outer rest
  have hcontext : Context.operator ⟨p, outer⟩ t op =
      ⟨⟨some (l.tree, op), none, []⟩, outer⟩ := by
    simp [Context.operator, Pending.operator, hop, ht]
  refine ⟨t', ⟨some (l.tree, op), product, signs⟩, ?_, ?_⟩
  · rw [Pending.total, Pending.joined, Expr.tree]
    exact congrArg (Tree.binary op l.tree) ht'
  · rw [Expr.tokens, List.append_assoc, List.cons_append, hread, readFrom_operator, hcontext, hread']

theorem Expr.Grouped.reads {e : Expr} (h : e.Grouped) : Reads e e.rank := by
  induction e with
  | int v =>
      intro c rest
      simp only [tokens, List.cons_append, List.nil_append, readFrom, Reading.step,
        Reading.operandStep, ofNumber?_int h, Option.map_some, Option.bind_some, tree]
  | long v =>
      intro c rest
      simp only [tokens, List.cons_append, List.nil_append, readFrom, Reading.step,
        Reading.operandStep, ofNumber?_long h, Option.map_some, Option.bind_some, tree]
  | double d =>
      intro c rest
      simp only [tokens, List.cons_append, List.nil_append, readFrom, Reading.step,
        Reading.operandStep, ofNumber?_decimal h, Option.map_some, Option.bind_some, tree]
  | string s => exact fun c rest => rfl
  | bool b => cases b <;> exact fun c rest => rfl
  | name id =>
      intro c rest
      have hword : Tree.ofWord? id = some (.name id) := by
        have htrue : id ≠ "true" := by rintro rfl; exact h (by decide)
        have hfalse : id ≠ "false" := by rintro rfl; exact h (by decide)
        rw [Tree.ofWord?, if_neg htrue, if_neg hfalse, if_neg h]
      simp only [tokens, List.cons_append, List.nil_append, readFrom, Reading.step,
        Reading.operandStep, hword, Option.map_some, Option.bind_some, tree]
  | paren e ih => exact reads_paren h ((ih h).of_le (Nat.zero_le _))
  | neg e ih => exact reads_neg ((ih h.2).of_le h.1)
  | binary op l r ihl ihr =>
      obtain ⟨hl, hr, hgl, hgr⟩ := h
      cases hop : op.isSum with
      | true =>
          have hrank : opRank op = 0 := by simp [opRank, hop]
          rw [hrank] at hr
          have hfactor : Reads r 1 := (ihr hgr).of_le hr
          rw [rank, hrank]
          exact reads_sum hop ((ihl hgl).of_le (Nat.zero_le _)) hfactor
      | false =>
          have hrank : opRank op = 1 := by simp [opRank, hop]
          rw [hrank] at hl hr
          have hfactor : Reads l 1 := (ihl hgl).of_le hl
          have hunary : Reads r 2 := (ihr hgr).of_le hr
          rw [rank, hrank]
          exact reads_product hop hfactor hunary
  | valueOf e ih => exact reads_valueOf h ((ih h).of_le (Nat.zero_le _))
  | unbox p e ih =>
      have hatom : Reads e 3 := h.1 ▸ ih h.2
      exact reads_unbox hatom
  | cast p e ih => exact reads_cast ((ih h.2).of_le h.1)

theorem read_text {e : Expr} (hspelled : e.Spelled) (hgrouped : e.Grouped) :
    read e.text = some e.tree := by
  obtain ⟨t, p, ht, hread⟩ := (hgrouped.reads.of_le (Nat.zero_le _) : ReadsTotal e) [] []
  rw [read, lex_eq_tokens hspelled, Option.bind_some, Context.top]
  rw [List.append_nil] at hread
  rw [hread, readFrom, Reading.finish, if_pos rfl, ht]

end FunctionJar.Java
