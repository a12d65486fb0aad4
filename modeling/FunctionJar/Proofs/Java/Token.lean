import FunctionJar.ClassName
import FunctionJar.Java.Expr
import FunctionJar.Proofs.Text

namespace FunctionJar.Java

inductive Token
  | word (s : String)
  | number (text : List Char)
  | string (raw : List Char)
  | sign (c : Char)
  deriving DecidableEq, Repr

def isNumberRest (c : Char) : Bool := ClassName.isIdentRest c || c == '.'

/-- Whether a sign and what stands behind it are one token, or the beginning of one. -/
def joins (sign next : Char) : Bool :=
  match sign with
  | '.' => next == '.' || next.isDigit
  | '+' => next == '+' || next == '='
  | '-' => next == '-' || next == '=' || next == '>'
  | '*' | '%' => next == '='
  | '/' => next == '/' || next == '*' || next == '='
  | _ => false

/-- What has been read of a token, the last character first. -/
inductive Lexing
  | between
  | word (read : List Char)
  | number (read : List Char)
  | string (read : List Char)
  | escape (read : List Char)
  | sign (c : Char)
  deriving DecidableEq, Repr

namespace Lexing

def isBlank (c : Char) : Bool := c == ' ' || c == '\t' || c == '\n' || c == '\r'

def isSign (c : Char) : Bool := ['.', '+', '-', '*', '/', '%'].contains c

def start (c : Char) : Option (List Token × Lexing) :=
  if isBlank c then some ([], between)
  else if c = '(' ∨ c = ')' then some ([.sign c], between)
  else if isSign c then some ([], sign c)
  else if c = '"' then some ([], string [])
  else if c.isDigit then some ([], number [c])
  else if ClassName.isIdentStart c then some ([], word [c])
  else none

/-- A token that ends right before `c`, and what `c` begins. -/
def closed (t : Token) (c : Char) : Option (List Token × Lexing) :=
  (start c).map fun (ts, m) => (t :: ts, m)

def backwards (read : List Char) : String := String.ofList read.reverse

def step (m : Lexing) (c : Char) : Option (List Token × Lexing) :=
  match m with
  | between => start c
  | word read =>
    if ClassName.isIdentRest c then some ([], word (c :: read))
    else closed (.word (backwards read)) c
  | number read =>
    if isNumberRest c then some ([], number (c :: read)) else closed (.number read.reverse) c
  | string read =>
    if c = '"' then some ([.string read.reverse], between)
    else if c = '\\' then some ([], escape (c :: read))
    else some ([], string (c :: read))
  | escape read => some ([], string (c :: read))
  | sign s => if joins s c then none else closed (.sign s) c

def finish : Lexing → Option (List Token)
  | between => some []
  | word read => some [.word (backwards read)]
  | number read => some [.number read.reverse]
  | string _ | escape _ => none
  | sign c => some [.sign c]

end Lexing

def lexFrom (m : Lexing) : List Char → Option (List Token)
  | [] => m.finish
  | c :: rest =>
    match m.step c with
    | none => none
    | some (ts, m') => (lexFrom m' rest).map (ts ++ ·)

/-- The tokens of a text, if it has nothing but tokens of expressions. -/
def lex (text : List Char) : Option (List Token) := lexFrom .between text

theorem lexFrom_closed {m : Lexing} {t : Token} {rest : List Char}
    (hend : m.finish = some [t])
    (hstep : ∀ c ∈ rest.head?, m.step c = Lexing.closed t c) :
    lexFrom m rest = (lexFrom .between rest).map (t :: ·) := by
  cases rest with
  | nil => simpa [lexFrom, Lexing.finish] using hend
  | cons c rest =>
      rw [lexFrom, lexFrom, hstep c (by simp), Lexing.closed, Lexing.step]
      cases Lexing.start c with
      | none => rfl
      | some p => simp [Function.comp_def]

theorem lexFrom_word {read rest : List Char}
    (h : ∀ c ∈ rest.head?, ClassName.isIdentRest c = false) :
    lexFrom (.word read) rest =
      (lexFrom .between rest).map (.word (Lexing.backwards read) :: ·) :=
  lexFrom_closed rfl fun c hc => by simp [Lexing.step, h c hc]

theorem lexFrom_number {read rest : List Char}
    (h : ∀ c ∈ rest.head?, isNumberRest c = false) :
    lexFrom (.number read) rest = (lexFrom .between rest).map (.number read.reverse :: ·) :=
  lexFrom_closed rfl fun c hc => by simp [Lexing.step, h c hc]

theorem lexFrom_sign {s : Char} {rest : List Char} (h : ∀ c ∈ rest.head?, joins s c = false) :
    lexFrom (.sign s) rest = (lexFrom .between rest).map (.sign s :: ·) :=
  lexFrom_closed rfl fun c hc => by simp [Lexing.step, h c hc]

theorem lexFrom_word_append {cs : List Char} (h : ∀ c ∈ cs, ClassName.isIdentRest c = true)
    (read rest : List Char) :
    lexFrom (.word read) (cs ++ rest) = lexFrom (.word (cs.reverse ++ read)) rest := by
  induction cs generalizing read with
  | nil => rfl
  | cons c cs ih =>
      have hc := h c (by simp)
      rw [List.cons_append, lexFrom, Lexing.step, if_pos hc]
      simpa using ih (fun d hd => h d (by simp [hd])) (c :: read)

theorem lexFrom_number_append {cs : List Char} (h : ∀ c ∈ cs, isNumberRest c = true)
    (read rest : List Char) :
    lexFrom (.number read) (cs ++ rest) = lexFrom (.number (cs.reverse ++ read)) rest := by
  induction cs generalizing read with
  | nil => rfl
  | cons c cs ih =>
      have hc := h c (by simp)
      rw [List.cons_append, lexFrom, Lexing.step, if_pos hc]
      simpa using ih (fun d hd => h d (by simp [hd])) (c :: read)

theorem lexFrom_escapeChar (c : Char) (read rest : List Char) :
    lexFrom (.string read) (escapeChar c ++ rest) =
      lexFrom (.string ((escapeChar c).reverse ++ read)) rest := by
  unfold escapeChar
  split
  · simp [lexFrom, Lexing.step]
  · simp [lexFrom, Lexing.step]
  · simp [lexFrom, Lexing.step]
  · next hslash hquote _ =>
      simp [lexFrom, Lexing.step, show c ≠ '"' from hquote, show c ≠ '\\' from hslash]

theorem lexFrom_string_append (cs read rest : List Char) :
    lexFrom (.string read) (cs.flatMap escapeChar ++ '"' :: rest) =
      (lexFrom .between rest).map (.string (read.reverse ++ cs.flatMap escapeChar) :: ·) := by
  induction cs generalizing read with
  | nil => simp [lexFrom, Lexing.step]
  | cons c cs ih =>
      rw [List.flatMap_cons, List.append_assoc, lexFrom_escapeChar, ih]
      simp

namespace Expr

def tokens : Expr → List Token
  | int v => [.number (toString v).toList]
  | long v => [.number ((toString v).toList ++ ['L'])]
  | double d => [.number d.toList]
  | string s => [.string (s.toList.flatMap escapeChar)]
  | bool b => [.word (boolText b)]
  | name id => [.word id]
  | paren e => .sign '(' :: e.tokens ++ [.sign ')']
  | neg e => .sign '-' :: e.tokens
  | binary op l r => l.tokens ++ .sign op.symbol :: r.tokens
  | valueOf e =>
    [.word "String", .sign '.', .word "valueOf", .sign '('] ++ e.tokens ++ [.sign ')']
  | unbox p e => e.tokens ++ [.sign '.', .word p.valueMethod, .sign '(', .sign ')']
  | cast p e => [.sign '(', .word p.name, .sign ')'] ++ e.tokens

def endsInNumber : Expr → Bool
  | int _ | long _ | double _ => true
  | neg e | cast _ e => e.endsInNumber
  | binary _ _ r => r.endsInNumber
  | _ => false

end Expr

/-- Digits with a point between them. -/
def IsDecimal (text : List Char) : Prop :=
  ∃ whole part, text = whole ++ '.' :: part ∧ whole ≠ [] ∧ part ≠ [] ∧
    (∀ c ∈ whole, c.isDigit) ∧ ∀ c ∈ part, c.isDigit

namespace Expr

/-- Literals and names are such, and no two tokens run together. -/
def Spelled : Expr → Prop
  | int _ | long _ | string _ | bool _ => True
  | double d => IsDecimal d.toList
  | name id => ClassName.isIdentifier id.toList
  | paren e | valueOf e | cast _ e => e.Spelled
  | neg e => e.Spelled ∧ e.text.head? ≠ some '-'
  | binary _ l r => l.Spelled ∧ r.Spelled
  | unbox _ e => e.Spelled ∧ e.endsInNumber = false

end Expr

theorem isNumberRest_of_isDigit {c : Char} (h : c.isDigit) : isNumberRest c = true := by
  simp [isNumberRest, ClassName.isIdentRest, Char.isAlphanum, h]

theorem point_not_mem {digits : List Char} (h : ∀ c ∈ digits, c.isDigit) : '.' ∉ digits :=
  fun hpoint => absurd (h '.' hpoint) (by decide)

theorem IsDecimal.isDigit_last {text : List Char} (h : IsDecimal text) {c : Char}
    (hlast : text.getLast? = some c) : c.isDigit := by
  obtain ⟨whole, part, rfl, -, hpart, -, hbehind⟩ := h
  rw [List.getLast?_append, List.getLast?_cons] at hlast
  cases hend : part.getLast? with
  | none => exact absurd (List.getLast?_eq_none_iff.mp hend) hpart
  | some d =>
      obtain rfl : d = c := by simpa [hend] using hlast
      exact hbehind d (List.mem_of_getLast? hend)

theorem IsDecimal.isNumberRest {text : List Char} (h : IsDecimal text) :
    ∃ c cs, text = c :: cs ∧ c.isDigit ∧ ∀ d ∈ cs, Java.isNumberRest d = true := by
  obtain ⟨whole, part, rfl, hwhole, -, hdigits, hdigits'⟩ := h
  obtain ⟨c, cs, rfl⟩ := List.exists_cons_of_ne_nil hwhole
  refine ⟨c, cs ++ '.' :: part, rfl, hdigits c (by simp), fun d hd => ?_⟩
  rcases List.mem_append.mp hd with hd | hd
  · exact isNumberRest_of_isDigit (hdigits d (by simp [hd]))
  · rcases List.mem_cons.mp hd with rfl | hd
    · rfl
    · exact isNumberRest_of_isDigit (hdigits' d hd)

def specials : List Char := [' ', '\t', '\n', '\r', '(', ')', '.', '+', '-', '*', '/', '%', '"']

theorem start_of_not_special {c : Char} (h : c ∉ specials) : Lexing.start c =
    if c.isDigit then some ([], .number [c])
    else if ClassName.isIdentStart c then some ([], .word [c])
    else none := by
  simp only [specials, List.mem_cons, List.not_mem_nil, or_false, not_or] at h
  simp [Lexing.start, Lexing.isBlank, Lexing.isSign, h]

theorem start_of_isDigit {c : Char} (h : c.isDigit) : Lexing.start c = some ([], .number [c]) := by
  have hspecial : specials.all (fun d => !d.isDigit) := by decide
  have hc : c ∉ specials := fun hc => by
    have hdigit := List.all_eq_true.mp hspecial c hc
    simp [h] at hdigit
  rw [start_of_not_special hc, if_pos h]

theorem le_toNat_of_isAlpha {c : Char} (h : c.isAlpha) : 'A'.toNat ≤ c.toNat := by
  rcases (Bool.or_eq_true _ _).mp h with hupper | hlower
  · have hrange : c.val ≥ 'A'.val ∧ c.val ≤ 'Z'.val := of_decide_eq_true hupper
    exact UInt32.le_iff_toNat_le.mp hrange.1
  · have hrange := of_decide_eq_true ((Bool.and_eq_true _ _).mp hlower).1
    exact Nat.le_trans (by decide) (UInt32.le_iff_toNat_le.mp hrange)

theorem isDigit_of_isIdentStart {c : Char} (h : ClassName.isIdentStart c) : c.isDigit = false := by
  simp only [ClassName.isIdentStart, Bool.or_eq_true, beq_iff_eq] at h
  rcases h with (halpha | rfl) | rfl
  · cases hdigit : c.isDigit with
    | false => rfl
    | true =>
        have hlow := (Char.isDigit_iff_toNat.mp hdigit).2
        have hhigh := Nat.le_trans (le_toNat_of_isAlpha halpha) hlow
        exact absurd hhigh (by decide)
  · rfl
  · rfl

theorem start_of_isIdentStart {c : Char} (h : ClassName.isIdentStart c) :
    Lexing.start c = some ([], .word [c]) := by
  have hspecial : specials.all (fun d => !ClassName.isIdentStart d) := by decide
  have hc : c ∉ specials := fun hc => by
    have hstart := List.all_eq_true.mp hspecial c hc
    simp [h] at hstart
  rw [start_of_not_special hc, if_neg (by simp [isDigit_of_isIdentStart h]), if_pos h]

theorem lex_number {text rest : List Char} {c : Char} {cs : List Char} (htext : text = c :: cs)
    (hc : c.isDigit) (hcs : ∀ d ∈ cs, isNumberRest d = true)
    (hrest : ∀ d ∈ rest.head?, isNumberRest d = false) :
    lexFrom .between (text ++ rest) = (lexFrom .between rest).map (.number text :: ·) := by
  subst htext
  rw [List.cons_append, lexFrom, Lexing.step, start_of_isDigit hc]
  simp only [List.nil_append, Option.map_id']
  rw [lexFrom_number_append hcs, lexFrom_number hrest]
  simp

theorem lex_toString (v : Nat) {tail rest : List Char} (htail : ∀ d ∈ tail, isNumberRest d = true)
    (hrest : ∀ d ∈ rest.head?, isNumberRest d = false) :
    lexFrom .between ((toString v).toList ++ tail ++ rest) =
      (lexFrom .between rest).map (.number ((toString v).toList ++ tail) :: ·) := by
  obtain ⟨c, cs, hv⟩ := Text.exists_toString v
  have hdigit : ∀ d ∈ c :: cs, d.isDigit := fun d hd => Text.isDigit_of_mem_toString (hv ▸ hd)
  have hnumber : (toString v).toList ++ tail = c :: (cs ++ tail) := by rw [hv, List.cons_append]
  refine lex_number hnumber (hdigit c (by simp)) (fun d hd => ?_) hrest
  rcases List.mem_append.mp hd with hd | hd
  · exact isNumberRest_of_isDigit (hdigit d (by simp [hd]))
  · exact htail d hd

theorem lex_word {id rest : List Char} (h : ClassName.isIdentifier id)
    (hrest : ∀ d ∈ rest.head?, ClassName.isIdentRest d = false) :
    lexFrom .between (id ++ rest) =
      (lexFrom .between rest).map (.word (String.ofList id) :: ·) := by
  cases id with
  | nil => simp [ClassName.isIdentifier] at h
  | cons c cs =>
      simp only [ClassName.isIdentifier, Bool.and_eq_true, List.all_eq_true] at h
      rw [List.cons_append, lexFrom, Lexing.step, start_of_isIdentStart h.1]
      simp only [List.nil_append, Option.map_id']
      rw [lexFrom_word_append h.2, lexFrom_word hrest]
      simp [Lexing.backwards]

theorem lex_sign {c : Char} (hc : Lexing.isSign c) (rest : List Char)
    (hrest : ∀ d ∈ rest.head?, joins c d = false) :
    lexFrom .between (c :: rest) = (lexFrom .between rest).map (.sign c :: ·) := by
  have hmem : c ∈ ['.', '+', '-', '*', '/', '%'] := by simpa [Lexing.isSign] using hc
  have hall : ['.', '+', '-', '*', '/', '%'].all fun d => Lexing.start d = some ([], .sign d) := by
    decide
  have hstart : Lexing.start c = some ([], .sign c) := by
    simpa using List.all_eq_true.mp hall c hmem
  rw [lexFrom, Lexing.step, hstart]
  simp only [List.nil_append, Option.map_id']
  exact lexFrom_sign hrest

theorem lex_paren {c : Char} (h : c = '(' ∨ c = ')') (rest : List Char) :
    lexFrom .between (c :: rest) = (lexFrom .between rest).map (.sign c :: ·) := by
  rcases h with rfl | rfl <;> rfl

theorem lex_space (rest : List Char) : lexFrom .between (' ' :: rest) = lexFrom .between rest := by
  simp [lexFrom, Lexing.step, Lexing.start, Lexing.isBlank]

def begins (c : Char) : Bool :=
  c.isDigit || ClassName.isIdentStart c || c == '"' || c == '(' || c == '-'

theorem begins_of_mem_toString {v : Nat} {c : Char} {cs : List Char}
    (h : (toString v).toList = c :: cs) : begins c = true := by
  have hmem : c ∈ (toString v).toList := by
    rw [h]
    exact List.mem_cons_self
  simp [begins, Text.isDigit_of_mem_toString hmem]

theorem Expr.Spelled.head {e : Expr} (h : e.Spelled) : ∃ c cs, e.text = c :: cs ∧ begins c := by
  induction e with
  | int v =>
      obtain ⟨c, cs, hv⟩ := Text.exists_toString v
      exact ⟨c, cs, by rw [text, hv], begins_of_mem_toString hv⟩
  | long v =>
      obtain ⟨c, cs, hv⟩ := Text.exists_toString v
      exact ⟨c, cs ++ ['L'], by rw [text, hv, List.cons_append], begins_of_mem_toString hv⟩
  | double d =>
      simp only [Spelled] at h
      obtain ⟨c, cs, hd, hc, -⟩ := h.isNumberRest
      exact ⟨c, cs, by rw [text, hd], by simp [begins, hc]⟩
  | string s => exact ⟨'"', _, rfl, rfl⟩
  | bool b => cases b <;> exact ⟨_, _, rfl, rfl⟩
  | name id =>
      cases hid : id.toList with
      | nil => simp [Spelled, hid, ClassName.isIdentifier] at h
      | cons c cs =>
          simp only [Spelled, hid, ClassName.isIdentifier, Bool.and_eq_true] at h
          exact ⟨c, cs, hid, by simp [begins, h.1]⟩
  | paren e => exact ⟨'(', _, rfl, rfl⟩
  | neg e => exact ⟨'-', _, rfl, rfl⟩
  | binary op l r ihl _ =>
      obtain ⟨c, cs, hl, hc⟩ := ihl h.1
      exact ⟨c, cs ++ ([' ', op.symbol, ' '] ++ r.text), by simp [text, hl], hc⟩
  | valueOf e => exact ⟨'S', _, rfl, rfl⟩
  | unbox p e ih =>
      obtain ⟨c, cs, he, hc⟩ := ih h.1
      exact ⟨c, cs ++ '.' :: p.valueMethod.toList ++ ['(', ')'], by simp [text, he], hc⟩
  | cast p e => exact ⟨'(', _, rfl, rfl⟩

theorem lex_valueOf (rest : List Char) :
    lexFrom .between (valueOfMethod.toList ++ '(' :: rest) = (lexFrom .between rest).map
      (fun ts => .word "String" :: .sign '.' :: .word "valueOf" :: .sign '(' :: ts) := by
  have hsplit : valueOfMethod.toList ++ '(' :: rest =
      "String".toList ++ '.' :: ("valueOf".toList ++ '(' :: rest) := rfl
  rw [hsplit, lex_word (by decide) (by simp; decide), lex_sign rfl _ (by simp; decide),
    lex_word (by decide) (by simp; decide), lex_paren (.inl rfl)]
  simp [Option.map_map, Function.comp_def]

theorem lex_valueMethod (p : Prim) (rest : List Char) :
    lexFrom .between ('.' :: (p.valueMethod.toList ++ '(' :: ')' :: rest)) =
      (lexFrom .between rest).map
        (fun ts => .sign '.' :: .word p.valueMethod :: .sign '(' :: .sign ')' :: ts) := by
  have hword : ClassName.isIdentifier p.valueMethod.toList := by cases p <;> decide
  have hjoins : ∀ d ∈ (p.valueMethod.toList ++ '(' :: ')' :: rest).head?, joins '.' d = false := by
    cases p <;> simp [Prim.valueMethod, Prim.name] <;> decide
  rw [lex_sign rfl _ hjoins, lex_word hword (by simp; decide), lex_paren (.inl rfl),
    lex_paren (.inr rfl), String.ofList_toList]
  simp [Option.map_map, Function.comp_def]

theorem lex_prim (p : Prim) (rest : List Char) :
    lexFrom .between ('(' :: (p.name.toList ++ ')' :: ' ' :: rest)) =
      (lexFrom .between rest).map
        (fun ts => .sign '(' :: .word p.name :: .sign ')' :: ts) := by
  have hword : ClassName.isIdentifier p.name.toList := by cases p <;> decide
  rw [lex_paren (.inl rfl), lex_word hword (by simp; decide), lex_paren (.inr rfl), lex_space,
    String.ofList_toList]
  simp [Option.map_map, Function.comp_def]

theorem Expr.ends_number {e : Expr} (hends : e.endsInNumber) {rest : List Char}
    (hrest : ∀ c ∈ rest.head?, ClassName.isIdentRest c = false ∧ (e.endsInNumber → c ≠ '.')) :
    ∀ d ∈ rest.head?, isNumberRest d = false := by
  intro d hd
  obtain ⟨hident, hpoint⟩ := hrest d hd
  simp [isNumberRest, hident, hpoint hends]

/-- The text of an expression has the expression's tokens, in front of a text that does not go on
with the last one. -/
theorem lex_text {e : Expr} (h : e.Spelled) (rest : List Char)
    (hrest : ∀ c ∈ rest.head?, ClassName.isIdentRest c = false ∧ (e.endsInNumber → c ≠ '.')) :
    lexFrom .between (e.text ++ rest) = (lexFrom .between rest).map (e.tokens ++ ·) := by
  induction e generalizing rest with
  | int v =>
      have hlex := @lex_toString v [] rest (by simp) (Expr.ends_number (e := .int v) rfl hrest)
      simpa [Expr.text, Expr.tokens] using hlex
  | long v => exact lex_toString v (by simp; decide) (Expr.ends_number (e := .long v) rfl hrest)
  | double d =>
      simp only [Expr.Spelled] at h
      obtain ⟨c, cs, hd, hc, hcs⟩ := h.isNumberRest
      exact lex_number hd hc hcs (Expr.ends_number (e := .double d) rfl hrest)
  | string s =>
      have hopen : ∀ cs, lexFrom .between ('"' :: cs) = lexFrom (.string []) cs := by
        intro cs
        simp [lexFrom, Lexing.step, Lexing.start, Lexing.isBlank, Lexing.isSign]
      simp only [Expr.text, stringLiteral, List.cons_append, List.append_assoc, List.nil_append,
        hopen, lexFrom_string_append, Expr.tokens, List.reverse_nil]
  | bool b =>
      have hword : ClassName.isIdentifier (boolText b).toList := by cases b <;> decide
      rw [Expr.text, lex_word hword fun d hd => (hrest d hd).1, String.ofList_toList]
      rfl
  | name id =>
      rw [Expr.text, lex_word h fun d hd => (hrest d hd).1, String.ofList_toList]
      rfl
  | paren e ih =>
      have hclose := ih h (')' :: rest) (by simp; decide)
      simp only [Expr.text, Expr.tokens, List.cons_append, List.append_assoc, List.nil_append,
        lex_paren, hclose, true_or, or_true, Option.map_map, Function.comp_def]
  | neg e ih =>
      obtain ⟨c, cs, he, hc⟩ := h.1.head
      have hminus : c ≠ '-' := by simpa [he] using h.2
      have hjoins : joins '-' c = false := by
        simp only [joins, Bool.or_eq_false_iff, beq_eq_false_iff_ne]
        refine ⟨⟨hminus, ?_⟩, ?_⟩ <;> rintro rfl <;> simp [begins] at hc <;> revert hc <;> decide
      have hsign := lex_sign rfl (e.text ++ rest) (by simpa [he] using hjoins)
      simp only [Expr.text, Expr.tokens, List.cons_append, hsign, ih h.1 rest hrest, Option.map_map,
        Function.comp_def]
  | binary op l r ihl ihr =>
      have hl := ihl h.1 (' ' :: op.symbol :: ' ' :: (r.text ++ rest)) (by simp; decide)
      have hop : Lexing.isSign op.symbol := by cases op <;> rfl
      have hsign := lex_sign hop (' ' :: (r.text ++ rest)) (by cases op <;> simp <;> rfl)
      simp only [Expr.text, Expr.tokens, List.append_assoc, List.cons_append, List.nil_append, hl,
        lex_space, hsign, ihr h.2 rest hrest, Option.map_map, Function.comp_def]
  | valueOf e ih =>
      have hclose := ih h (')' :: rest) (by simp; decide)
      simp only [Expr.text, Expr.tokens, List.append_assoc, List.cons_append, List.nil_append,
        lex_valueOf, hclose, lex_paren, or_true, Option.map_map, Function.comp_def]
  | unbox p e ih =>
      have hpoint := ih h.1 ('.' :: (p.valueMethod.toList ++ '(' :: ')' :: rest))
        (by simp [h.2]; decide)
      simp only [Expr.text, Expr.tokens, List.append_assoc, List.cons_append, List.nil_append,
        hpoint, lex_valueMethod, Option.map_map, Function.comp_def]
  | cast p e ih =>
      simp only [Expr.text, Expr.tokens, List.append_assoc, List.cons_append, List.nil_append,
        lex_prim, ih h rest hrest, Option.map_map, Function.comp_def]

theorem lex_eq_tokens {e : Expr} (h : e.Spelled) : lex e.text = some e.tokens := by
  have htext := lex_text h [] (by simp)
  simpa [lex, lexFrom, Lexing.finish] using htext

end FunctionJar.Java
