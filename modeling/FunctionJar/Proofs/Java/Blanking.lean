import FunctionJar.Proofs.ClassName
import FunctionJar.Proofs.Java.Token
import FunctionJar.Proofs.Source.Fragment

namespace FunctionJar.Java

open Source

variable {c : Char} {s : List Char}

theorem literalText_escaped (s : List Char) :
    LiteralText '"' (s.flatMap escapeChar) ∧ '\n' ∉ s.flatMap escapeChar := by
  induction s with
  | nil => exact ⟨.nil, List.not_mem_nil⟩
  | cons c s ih =>
      rw [List.flatMap_cons]
      generalize s.flatMap escapeChar = rest at ih ⊢
      obtain ⟨hrest, hfeed⟩ := ih
      unfold escapeChar
      split
      · exact ⟨.escaped hrest, by simpa using hfeed⟩
      · exact ⟨.escaped hrest, by simpa using hfeed⟩
      · exact ⟨.escaped hrest, by simpa using hfeed⟩
      · next hescape hquote hc =>
          exact ⟨.plain hescape hc hquote hrest, by simpa [Ne.symm hc] using hfeed⟩

/-- As many spaces as there are characters between the quotes of a literal. -/
def spaces (s : String) : String :=
  String.ofList (List.replicate (s.toList.flatMap escapeChar).length ' ')

theorem stringLiteral_spaces (s : String) :
    stringLiteral (spaces s) = '"' :: blank (s.toList.flatMap escapeChar) ++ ['"'] := by
  have hspaces : ∀ n, (List.replicate n ' ').flatMap escapeChar = List.replicate n ' ' := by
    intro n
    induction n with
    | zero => rfl
    | succ n ih =>
        rw [List.replicate_succ, List.flatMap_cons, ih]
        rfl
  rw [blank_eq_replicate (literalText_escaped s.toList).2, stringLiteral, spaces,
    String.toList_ofList, hspaces]

theorem isPlain_of_isNumberRest (h : isNumberRest c = true) : isPlain c = true :=
  isPlain_of_kind (by decide) h

theorem IsDecimal.forall_isNumberRest (h : IsDecimal s) : ∀ c ∈ s, Java.isNumberRest c = true := by
  obtain ⟨c, cs, rfl, hc, hcs⟩ := h.isNumberRest
  exact List.forall_mem_cons.mpr ⟨isNumberRest_of_isDigit hc, hcs⟩

theorem isNumberRest_of_toString {v : Nat} : ∀ c ∈ (toString v).toList, isNumberRest c = true :=
  fun _ hc => isNumberRest_of_isDigit (Text.isDigit_of_mem_toString hc)

theorem isNumberRest_of_identifier (h : ClassName.Identifier s) :
    ∀ c ∈ s, isNumberRest c = true := fun c hc => by
  rw [isNumberRest, h.isIdentRest c hc, Bool.true_or]

namespace Expr

def hidden : Expr → Expr
  | int v => int v
  | long v => long v
  | double d => double d
  | string s => string (spaces s)
  | bool b => bool b
  | name id => name id
  | paren e => paren e.hidden
  | neg e => neg e.hidden
  | binary op l r => binary op l.hidden r.hidden
  | valueOf e => valueOf e.hidden
  | unbox p e => unbox p e.hidden
  | cast p e => cast p e.hidden

theorem fragment_text {e : Expr} (h : e.Spelled) : Fragment NoQuote e.text e.hidden.text := by
  have hword : ∀ {s : List Char}, (∀ c ∈ s, isNumberRest c = true) → Fragment NoQuote s s :=
    fun hs => (inert_of_plain fun c hc => isPlain_of_isNumberRest (hs c hc)).mono fun _ _ => trivial
  induction e with
  | int v => exact hword isNumberRest_of_toString
  | long v =>
      have hmark : ∀ c ∈ ['L'], isNumberRest c = true := List.all_eq_true.mp rfl
      exact hword fun c hc => (List.mem_append.mp hc).elim (isNumberRest_of_toString c) (hmark c)
  | double d => exact hword h.forall_isNumberRest
  | string s =>
      rw [hidden, text, text, stringLiteral_spaces]
      exact fragment_literal (literalText_escaped _).1
  | bool b => exact hword (List.all_eq_true.mp (by cases b <;> rfl))
  | name id => exact hword (isNumberRest_of_identifier (ClassName.isIdentifier_iff.mp h))
  | paren e ih =>
      have hgroup := (ih h).wrap .round fun rest => by simp [NoQuote]
      exact hgroup.mono fun _ _ => trivial
  | neg e ih =>
      have hsign : Inert ['-'] := inert_of_all rfl
      exact hsign.any_append (ih h.1)
  | binary op l r ihl ihr =>
      have hop : Inert [' ', op.symbol, ' '] := by
        cases op with
        | div => exact inert_slash
        | add | sub | mul | rem => exact inert_of_all rfl
      have hleft := (ihl h.1).append hop fun rest _ => by simp [NoQuote]
      exact hleft.any_append (ihr h.2)
  | valueOf e ih =>
      have hmethod : Inert valueOfMethod.toList := inert_of_all rfl
      have hgroup := (ih h).wrap .round fun rest => by simp [NoQuote]
      exact (hmethod.any_append hgroup).mono fun _ _ => trivial
  | unbox p e ih =>
      have hmethod : Inert ('.' :: p.valueMethod.toList) :=
        inert_of_all (by cases p <;> rfl)
      have hcall : Inert ('(' :: [] ++ [')']) := (inert_of_all rfl).wrap .round fun _ => trivial
      have hbehind := (ih h.1).append (hmethod.any_append hcall) fun rest _ => by simp [NoQuote]
      rw [text, hidden, text, List.append_assoc, List.append_assoc]
      exact hbehind.mono fun _ _ => trivial
  | cast p e ih =>
      have htype : Inert p.name.toList := inert_of_all (by cases p <;> rfl)
      have hblank : Inert [' '] := inert_of_all rfl
      have hcast := (htype.wrap .round fun _ => trivial).any_append hblank
      simpa [text, hidden] using hcast.any_append (ih h)

theorem feed_not_mem_hidden {e : Expr} (h : e.Spelled) : '\n' ∉ e.hidden.text := by
  have hword : ∀ {s : List Char}, (∀ c ∈ s, isNumberRest c = true) → '\n' ∉ s :=
    fun hs hmem => Bool.false_ne_true (hs _ hmem)
  induction e with
  | int v => exact hword isNumberRest_of_toString
  | long v =>
      rw [hidden, text, List.mem_append, not_or]
      exact ⟨hword isNumberRest_of_toString, by decide⟩
  | double d => exact hword h.forall_isNumberRest
  | string s =>
      rw [hidden, text, stringLiteral_spaces, blank_eq_replicate (literalText_escaped _).2]
      simp
  | bool b => cases b <;> decide
  | name id => exact hword (isNumberRest_of_identifier (ClassName.isIdentifier_iff.mp h))
  | paren e ih => simpa [hidden, text] using ih h
  | neg e ih => simpa [hidden, text] using ih h.1
  | binary op l r ihl ihr =>
      have hop : '\n' ≠ op.symbol := by cases op <;> decide
      simpa [hidden, text, hop] using ⟨ihl h.1, ihr h.2⟩
  | valueOf e ih => simpa [hidden, text, valueOfMethod] using ih h
  | unbox p e ih =>
      have hmethod : '\n' ∉ p.valueMethod.toList := by cases p <;> decide
      simpa [hidden, text, hmethod] using ih h.1
  | cast p e ih =>
      have htype : '\n' ∉ p.name.toList := by cases p <;> decide
      simpa [hidden, text, htype] using ih h

end Expr

end FunctionJar.Java
