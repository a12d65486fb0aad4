import FunctionJar.Proofs.Java.Literal
import FunctionJar.Proofs.Sql.Scanning
import FunctionJar.Sql.Function

namespace FunctionJar.Sql

theorem tokensFrom_string (read cs rest : List Char) :
    tokensFrom (.string read) (Token.doubleQuotes cs ++ rest) =
      tokensFrom (.string (cs.reverse ++ read)) rest := by
  induction cs generalizing read with
  | nil => rfl
  | cons c cs ih =>
      have hcons : Token.doubleQuotes (c :: cs) =
          (if c = '\'' then ['\'', '\''] else [c]) ++ Token.doubleQuotes cs := rfl
      rw [hcons, List.append_assoc, List.reverse_cons, List.append_assoc, List.singleton_append,
        ← ih]
      by_cases hc : c = '\''
      · subst hc
        exact (tokensFrom_skip rfl _).trans (tokensFrom_skip rfl _)
      · rw [if_neg hc]
        exact tokensFrom_skip (by simp [Mode.step, hc]) _

theorem tokensFrom_str (s : String) {rest : List Char} (hrest : ∀ c ∈ rest.head?, c ≠ '\'') :
    tokensFrom .between ((Token.str s).text ++ rest) =
      (tokensFrom .between rest).map (.str s :: ·) := by
  have hopen : Mode.between.step '\'' = .ok ([], .string []) := rfl
  have hclose (read : List Char) : (Mode.string read).step '\'' = .ok ([], .quote read) := rfl
  have hclosed := tokensFrom_closed (m := Mode.quote s.toList.reverse) rfl fun c hc =>
    if_neg (hrest c hc)
  rw [Token.text, List.append_assoc, List.cons_append, tokensFrom_skip hopen, tokensFrom_string,
    List.append_nil, List.singleton_append, tokensFrom_skip (hclose _), hclosed,
    backwards_reverse, String.ofList_toList]

theorem tokensFrom_literal (s : String) :
    tokensFrom .between (Token.str s).text = .ok [.str s] := by
  have hnone : ∀ c ∈ ([] : List Char).head?, c ≠ '\'' := by simp
  have hstr := tokensFrom_str s hnone
  rw [List.append_nil] at hstr
  exact hstr

theorem tokenize_literal (s : String) :
    tokenize (String.ofList (Token.str s).text) = .ok [.str s] := by
  rw [tokenize, String.toList_ofList, tokensFrom_literal]

def constantHead : String := "FUNCTION () RETURNS STRING AS "

def constantText (s : String) : String := constantHead ++ String.ofList (Token.str s).text

theorem run_constantHead :
    Mode.between.run constantHead.toList =
      .ok ([.ident "FUNCTION", .leftParen, .rightParen, .ident "RETURNS", .ident "STRING",
        .ident "AS"], .between) := by
  apply ok_of_toOption
  decide +kernel

theorem tokenize_constantText (s : String) :
    tokenize (constantText s) = .ok [.ident "FUNCTION", .leftParen, .rightParen, .ident "RETURNS",
      .ident "STRING", .ident "AS", .str s] := by
  have htext : (constantText s).toList = constantHead.toList ++ (Token.str s).text := by
    rw [constantText, String.toList_append, String.toList_ofList]
  rw [tokenize, htext, tokensFrom_append run_constantHead, tokensFrom_literal]
  rfl

theorem parse_constantText (s : String) :
    Function.parse (constantText s) = .ok ⟨[], .string, .str s, .string s⟩ := by
  rw [Function.parse, tokenize_constantText]
  rfl

/-- A string in single quotes, with each quote in it doubled, is one token, and the Java text of a
function that returns it is a string literal with the same value. The one exception is a carriage
return, which stands unescaped in the Java text: with one, that text is no literal. -/
theorem literal_keeps_value (s : String) :
    tokenize (String.ofList (Token.str s).text) = .ok [.str s] ∧
      ∃ f, Function.parse (constantText s) = .ok f ∧
        Java.literalValue? f.java.text =
          if '\r' ∈ s.toList then none else some (s.toList.flatMap Java.utf16) :=
  ⟨tokenize_literal s, _, parse_constantText s, Java.literalValue?_stringLiteral s⟩

/-- The carriage return breaks the literal. -/
theorem carriageReturn_breaks_literal :
    ¬ ∀ s : String, ∀ f, Function.parse (constantText s) = .ok f →
      Java.literalValue? f.java.text = some (s.toList.flatMap Java.utf16) := by
  intro h
  have hvalue := h "a\rb" _ (parse_constantText "a\rb")
  have hnone : Java.literalValue? (Java.stringLiteral "a\rb") = none := by decide
  simp only [Java.Expr.text, hnone] at hvalue
  cases hvalue

end FunctionJar.Sql
