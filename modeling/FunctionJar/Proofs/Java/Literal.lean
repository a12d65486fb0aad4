import FunctionJar.Java.Expr

namespace FunctionJar.Java

def unit (c : Char) : UInt16 := UInt16.ofNat c.toNat

def utf16 (c : Char) : List UInt16 :=
  if c.toNat < 0x10000 then [unit c]
  else
    let above := c.toNat - 0x10000
    [UInt16.ofNat (0xD800 + above / 0x400), UInt16.ofNat (0xDC00 + above % 0x400)]

def hexDigit? (u : UInt16) : Option Nat :=
  if unit '0' ≤ u ∧ u ≤ unit '9' then some (u.toNat - '0'.toNat)
  else if unit 'a' ≤ u ∧ u ≤ unit 'f' then some (u.toNat - 'a'.toNat + 10)
  else if unit 'A' ≤ u ∧ u ≤ unit 'F' then some (u.toNat - 'A'.toNat + 10)
  else none

def octalDigit? (u : UInt16) : Option Nat :=
  if unit '0' ≤ u ∧ u ≤ unit '7' then some (u.toNat - '0'.toNat) else none

inductive Translating
  | outside
  | slash
  | marker
  | digits (missing value : Nat)
  deriving DecidableEq, Repr

def translateFrom : Translating → List UInt16 → Option (List UInt16)
  | .outside, [] => some []
  | .slash, [] => some [unit '\\']
  | .marker, [] | .digits _ _, [] => none
  | .outside, u :: us =>
    if u = unit '\\' then translateFrom .slash us else (translateFrom .outside us).map (u :: ·)
  | .slash, u :: us =>
    if u = unit 'u' then translateFrom .marker us
    else (translateFrom .outside us).map ([unit '\\', u] ++ ·)
  | .marker, u :: us =>
    if u = unit 'u' then translateFrom .marker us
    else (hexDigit? u).bind fun d => translateFrom (.digits 3 d) us
  | .digits 0 _, _ :: _ => none
  | .digits (n + 1) v, u :: us =>
    (hexDigit? u).bind fun d =>
      let v := 16 * v + d
      if n = 0 then (translateFrom .outside us).map (UInt16.ofNat v :: ·)
      else translateFrom (.digits n v) us

def translate (us : List UInt16) : Option (List UInt16) := translateFrom .outside us

inductive LiteralReading
  | before
  | body
  | escape
  | octal (more value : Nat)
  | closed
  deriving DecidableEq, Repr

def escapeValue? (u : UInt16) : Option UInt16 :=
  if u = unit 'b' then some 8
  else if u = unit 't' then some 9
  else if u = unit 'n' then some 10
  else if u = unit 'f' then some 12
  else if u = unit 'r' then some 13
  else if u = unit 's' then some 32
  else if u = unit '"' ∨ u = unit '\'' ∨ u = unit '\\' then some u
  else none

namespace LiteralReading

/-- A unit within the quotes that belongs to no escape before it: what it adds to the value, and
what follows. A literal ends on the line where it begins. -/
def plain (u : UInt16) : Option (List UInt16 × LiteralReading) :=
  if u = unit '\n' ∨ u = unit '\r' then none
  else if u = unit '"' then some ([], closed)
  else if u = unit '\\' then some ([], escape)
  else some ([u], body)

/-- An octal escape has up to three digits, or up to two if the first is above three. -/
def step : LiteralReading → UInt16 → Option (List UInt16 × LiteralReading)
  | before, u => if u = unit '"' then some ([], body) else none
  | body, u => plain u
  | escape, u =>
    match octalDigit? u with
    | some d => some ([], octal (if d < 4 then 2 else 1) d)
    | none => (escapeValue? u).map fun v => ([v], body)
  | octal more v, u =>
    match octalDigit? u, more with
    | some d, more + 1 => some ([], octal more (8 * v + d))
    | _, _ => (plain u).map fun (vs, r) => (UInt16.ofNat v :: vs, r)
  | closed, _ => none

end LiteralReading

def readLiteral : LiteralReading → List UInt16 → Option (List UInt16)
  | .closed, [] => some []
  | _, [] => none
  | r, u :: us =>
    match r.step u with
    | none => none
    | some (vs, r') => (readLiteral r' us).map (vs ++ ·)

/-- The value of a text that is one string literal, and nothing else. -/
def literalValue? (text : List Char) : Option (List UInt16) :=
  (translate (text.flatMap utf16)).bind (readLiteral .before)

example : literalValue? "\"\\u0041\\\\u0041\\101\"".toList =
    some ("A\\u0041A".toList.map unit) := by
  decide

theorem toNat_ofNat {n : Nat} (h : n < 0x10000) : (UInt16.ofNat n).toNat = n :=
  UInt16.toNat_ofNat_of_lt' h

theorem eq_of_unit_mem_utf16 {a c : Char} (ha : a.toNat < 0x80) (h : unit a ∈ utf16 c) :
    c = a := by
  have hunit : (unit a).toNat = a.toNat := toNat_ofNat (by omega)
  have hc : c.toNat < 0x110000 := by
    have := c.valid
    simp only [UInt32.isValidChar, Nat.isValidChar] at this
    simp only [Char.toNat]
    omega
  apply Char.toNat_inj.mp
  unfold utf16 at h
  split at h
  · next hsmall =>
      have := congrArg UInt16.toNat (List.mem_singleton.mp h)
      rw [hunit, unit, toNat_ofNat hsmall] at this
      exact this.symm
  · simp only [List.mem_cons, List.not_mem_nil, or_false] at h
    rcases h with h | h
    all_goals
      have := congrArg UInt16.toNat h
      rw [hunit, toNat_ofNat (by omega)] at this
      omega

theorem ne_unit_of_mem_utf16 {a c : Char} {u : UInt16} (hu : u ∈ utf16 c) (ha : a.toNat < 0x80)
    (hne : c ≠ a) : u ≠ unit a := by
  rintro rfl
  exact hne (eq_of_unit_mem_utf16 ha hu)

theorem translateFrom_outside_append {us : List UInt16} (h : ∀ u ∈ us, u ≠ unit '\\')
    (rest : List UInt16) :
    translateFrom .outside (us ++ rest) = (translateFrom .outside rest).map (us ++ ·) := by
  induction us with
  | nil => simp
  | cons u us ih =>
      have hu := h u (by simp)
      rw [List.cons_append, translateFrom, if_neg hu, ih fun v hv => h v (by simp [hv])]
      simp [Function.comp_def]

/-- A backslash and the unit behind it are left as they are, unless they begin an escape. -/
theorem translateFrom_pair {u : UInt16} (hu : u ≠ unit 'u') (rest : List UInt16) :
    translateFrom .outside (unit '\\' :: u :: rest) =
      (translateFrom .outside rest).map ([unit '\\', u] ++ ·) := by
  rw [translateFrom, if_pos rfl, translateFrom, if_neg hu]

theorem escapeChar_of_ne {c : Char} (hslash : c ≠ '\\') (hquote : c ≠ '"') (hline : c ≠ '\n') :
    escapeChar c = [c] := by
  unfold escapeChar
  split <;> first | contradiction | rfl

theorem translateFrom_escapeChar (c : Char) (rest : List UInt16) :
    translateFrom .outside ((escapeChar c).flatMap utf16 ++ rest) =
      (translateFrom .outside rest).map ((escapeChar c).flatMap utf16 ++ ·) := by
  by_cases hslash : c = '\\'
  · subst hslash
    exact translateFrom_pair (by decide) rest
  by_cases hquote : c = '"'
  · subst hquote
    exact translateFrom_pair (by decide) rest
  by_cases hline : c = '\n'
  · subst hline
    exact translateFrom_pair (by decide) rest
  rw [escapeChar_of_ne hslash hquote hline, List.flatMap_singleton]
  exact translateFrom_outside_append
    (fun u hu => ne_unit_of_mem_utf16 hu (by decide) hslash) rest

theorem translateFrom_escaped (cs : List Char) (rest : List UInt16) :
    translateFrom .outside ((cs.flatMap escapeChar).flatMap utf16 ++ rest) =
      (translateFrom .outside rest).map ((cs.flatMap escapeChar).flatMap utf16 ++ ·) := by
  induction cs with
  | nil => simp
  | cons c cs ih =>
      rw [List.flatMap_cons, List.flatMap_append, List.append_assoc, translateFrom_escapeChar, ih]
      simp [Function.comp_def]

theorem flatMap_utf16_stringLiteral (s : String) :
    (stringLiteral s).flatMap utf16 =
      unit '"' :: ((s.toList.flatMap escapeChar).flatMap utf16 ++ [unit '"']) := by
  rw [stringLiteral, List.cons_append, List.flatMap_cons, List.flatMap_append]
  rfl

theorem translate_stringLiteral (s : String) :
    translate ((stringLiteral s).flatMap utf16) = some ((stringLiteral s).flatMap utf16) := by
  have hquote : unit '"' ≠ unit '\\' := by decide
  have hclosed : translateFrom .outside [unit '"'] = some [unit '"'] := by decide
  rw [translate, flatMap_utf16_stringLiteral, translateFrom, if_neg hquote, translateFrom_escaped,
    hclosed]
  rfl

theorem readLiteral_cons {r r' : LiteralReading} {u : UInt16} {vs us : List UInt16}
    (h : r.step u = some (vs, r')) :
    readLiteral r (u :: us) = (readLiteral r' us).map (vs ++ ·) := by
  rw [readLiteral, h]

theorem readLiteral_body_append {us : List UInt16}
    (h : ∀ u ∈ us, ∀ a ∈ ['\n', '\r', '"', '\\'], u ≠ unit a) (rest : List UInt16) :
    readLiteral .body (us ++ rest) = (readLiteral .body rest).map (us ++ ·) := by
  induction us with
  | nil => simp
  | cons u us ih =>
      have hu := h u (by simp)
      have hstep : LiteralReading.body.step u = some ([u], .body) := by
        simp_all [LiteralReading.step, LiteralReading.plain]
      rw [List.cons_append, readLiteral_cons hstep, ih fun v hv => h v (by simp [hv])]
      simp [Function.comp_def]

theorem readLiteral_body_escape {u v : UInt16} (hoctal : octalDigit? u = none)
    (hvalue : escapeValue? u = some v) (rest : List UInt16) :
    readLiteral .body (unit '\\' :: u :: rest) = (readLiteral .body rest).map (v :: ·) := by
  have hslash : LiteralReading.body.step (unit '\\') = some ([], .escape) := by decide
  have hstep : LiteralReading.escape.step u = some ([v], .body) := by
    simp [LiteralReading.step, hoctal, hvalue]
  rw [readLiteral_cons hslash, readLiteral_cons hstep]
  simp [Function.comp_def]

theorem readLiteral_escapeChar (c : Char) (rest : List UInt16) :
    readLiteral .body ((escapeChar c).flatMap utf16 ++ rest) =
      if c = '\r' then none else (readLiteral .body rest).map (utf16 c ++ ·) := by
  by_cases hslash : c = '\\'
  · subst hslash
    exact readLiteral_body_escape (by decide) (by decide) rest
  by_cases hquote : c = '"'
  · subst hquote
    exact readLiteral_body_escape (by decide) (by decide) rest
  by_cases hline : c = '\n'
  · subst hline
    exact readLiteral_body_escape (by decide) (by decide) rest
  rw [escapeChar_of_ne hslash hquote hline, List.flatMap_singleton]
  by_cases hreturn : c = '\r'
  · subst hreturn
    rfl
  rw [if_neg hreturn]
  refine readLiteral_body_append (fun u hu a ha => ?_) rest
  simp only [List.mem_cons, List.not_mem_nil, or_false] at ha
  rcases ha with rfl | rfl | rfl | rfl <;>
    exact ne_unit_of_mem_utf16 hu (by decide) (by assumption)

theorem readLiteral_escaped (cs : List Char) (rest : List UInt16) :
    readLiteral .body ((cs.flatMap escapeChar).flatMap utf16 ++ rest) =
      if '\r' ∈ cs then none else (readLiteral .body rest).map (cs.flatMap utf16 ++ ·) := by
  induction cs with
  | nil => simp
  | cons c cs ih =>
      rw [List.flatMap_cons, List.flatMap_append, List.append_assoc, readLiteral_escapeChar, ih]
      by_cases hc : c = '\r'
      · simp [hc]
      · by_cases hcs : '\r' ∈ cs <;> simp [hc, Ne.symm hc, hcs, Function.comp_def]

theorem literalValue?_stringLiteral (s : String) :
    literalValue? (stringLiteral s) =
      if '\r' ∈ s.toList then none else some (s.toList.flatMap utf16) := by
  have hopen : LiteralReading.before.step (unit '"') = some ([], .body) := by decide
  have hclose : readLiteral .body [unit '"'] = some [] := by decide
  rw [literalValue?, translate_stringLiteral, Option.bind_some, flatMap_utf16_stringLiteral,
    readLiteral_cons hopen, readLiteral_escaped, hclose]
  split <;> simp

end FunctionJar.Java
