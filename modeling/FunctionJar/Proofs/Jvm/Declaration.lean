import FunctionJar.Jvm
import FunctionJar.Proofs.Except
import FunctionJar.Proofs.Naming
import FunctionJar.Proofs.Source.Declaration

namespace FunctionJar

namespace Text

theorem isWord_of_isIdentRest {c : Char} (h : ClassName.isIdentRest c) :
    isWord c = true ↔ c ≠ '$' := by
  simp only [ClassName.isIdentRest, Bool.or_eq_true, beq_iff_eq] at h
  rcases h with (halnum | rfl) | rfl
  · have hsmall : c.toNat < 128 := by
      have halpha : c.isAlpha = (c.isUpper || c.isLower) := rfl
      simp only [Char.isAlphanum, halpha, Bool.or_eq_true, isUpper_iff, isLower_iff,
        isDigit_iff] at halnum
      omega
    have hdollar : c ≠ '$' := by
      rintro rfl
      cases halnum
    simp [isWord, hsmall, halnum, hdollar]
  · decide
  · decide

end Text

namespace Source

open Text (isWord)

def IsIdent (c : Char) : Prop := isWord c = true ∨ c = '$'

def Written (keywords : List String) (name code before after : List Char) : Prop :=
  ∃ k ∈ keywords, ∃ gap, Gap gap ∧ code = before ++ (k.toList ++ (gap ++ name ++ after))

structure Apart (before after : List Char) : Prop where
  start : ∀ c ∈ before.getLast?, ¬ IsIdent c
  stop : ∀ c ∈ after.head?, ¬ IsIdent c

end Source

namespace Jvm

open Source Text

variable {language : Language} {className source : String} {code before after : List Char}

abbrev declaredName (className : String) : List Char := (ClassName.simple className).toList

theorem check_ne_undeclared_iff (hscan : scan .curly source.toList = .ok code) :
    (∀ l n, check language className source ≠ .error (.undeclared l n)) ↔
      declares language.keywords (declaredName className) code = true := by
  simp only [check, hscan, mapError_ok, ok_bind]
  cases declares language.keywords (declaredName className) code with
  | false => exact iff_of_false (fun h => h _ _ rfl) Bool.false_ne_true
  | true =>
      refine iff_of_true (fun l n h => ?_) rfl
      simp only [Bool.not_true, Bool.false_eq_true, if_false] at h
      split at h <;> cases h

theorem exists_head_keyword (language : Language) :
    ∀ k ∈ language.keywords, ∃ c cs, k.toList = c :: cs ∧ isWord c = true := by
  cases language with
  | java =>
      rintro k hk
      obtain rfl : k = "class" := by simpa [Language.keywords] using hk
      exact ⟨'c', _, rfl, rfl⟩
  | scala =>
      rintro k hk
      obtain rfl | rfl : k = "class" ∨ k = "object" := by simpa [Language.keywords] using hk
      · exact ⟨'c', _, rfl, rfl⟩
      · exact ⟨'o', _, rfl, rfl⟩

theorem exists_last_name (hname : ClassName.check className = .ok ()) :
    ∃ c, (declaredName className).getLast? = some c ∧ (isWord c = true ↔ c ≠ '$') := by
  have husable := (ClassName.check_eq_ok_iff.mp hname).usable_simple
  have hne : declaredName className ≠ [] := by
    obtain ⟨⟨c, cs, hcons, -⟩, -⟩ := husable
    rw [declaredName, hcons]
    exact List.cons_ne_nil c cs
  exact ⟨_, List.getLast?_eq_some_getLast hne,
    isWord_of_isIdentRest (husable.1.isIdentRest _ (List.getLast_mem hne))⟩

theorem declares_iff (hname : ClassName.check className = .ok ()) :
    declares language.keywords (declaredName className) code = true ↔
      ∃ before after, Written language.keywords (declaredName className) code before after ∧
        (∀ c ∈ before.getLast?, isWord c = false) ∧
        ((declaredName className).getLast? = some '$' ↔ ∃ c ∈ after.head?, isWord c = true) := by
  obtain ⟨last, hlast, hword⟩ := exists_last_name hname
  have hne : declaredName className ≠ [] := fun h => by simp [h] at hlast
  have hend : ∀ next : Option Char, isBoundary (declaredName className).getLast? next = true ↔
      ((declaredName className).getLast? = some '$' ↔ ∃ c ∈ next, isWord c = true) := by
    intro next
    rw [hlast]
    simp only [isBoundary_iff, Option.mem_def, Option.some.injEq, exists_eq_left', hword]
    exact not_iff_not
  have hkeywords : ∀ k ∈ language.keywords, k.toList ≠ [] := fun k hk => by
    obtain ⟨c, cs, hcons, -⟩ := exists_head_keyword language k hk
    simp [hcons]
  rw [declares, declaresFrom_iff hne hkeywords]
  simp only [Option.or_none]
  constructor
  · rintro ⟨front, t, hsplit, k, hk, hstart, gap, rest, rfl, hgap, hstop⟩
    obtain ⟨c, cs, hcons, hc⟩ := exists_head_keyword language k hk
    rw [hcons, List.head?_cons, isBoundary_some_iff hc] at hstart
    exact ⟨front, rest, ⟨k, hk, gap, hgap, hsplit⟩, hstart, (hend _).mp hstop⟩
  · rintro ⟨front, rest, ⟨k, hk, gap, hgap, hsplit⟩, hstart, hstop⟩
    obtain ⟨c, cs, hcons, hc⟩ := exists_head_keyword language k hk
    refine ⟨front, _, hsplit, k, hk, ?_, gap, rest, rfl, hgap, (hend _).mpr hstop⟩
    rwa [hcons, List.head?_cons, isBoundary_some_iff hc]

/-- The check misses no declaration if and only if a keyword stands at a word boundary with the name
behind it, which is a boundary to the name as well: no word goes on there, or one does if the name
itself ends in a dollar sign. Where no dollar sign is met, these are the keyword and the name as
identifiers of their own. -/
theorem declared_iff (hname : ClassName.check className = .ok ())
    (hscan : scan .curly source.toList = .ok code) :
    ((∀ l n, check language className source ≠ .error (.undeclared l n)) ↔
      ∃ before after, Written language.keywords (declaredName className) code before after ∧
        (∀ c ∈ before.getLast?, isWord c = false) ∧
        ((declaredName className).getLast? = some '$' ↔ ∃ c ∈ after.head?, isWord c = true)) ∧
    ((∀ before after, Written language.keywords (declaredName className) code before after →
        before.getLast? ≠ some '$' ∧ (declaredName className).getLast? ≠ some '$' ∧
          after.head? ≠ some '$') →
      ((∀ l n, check language className source ≠ .error (.undeclared l n)) ↔
        ∃ before after, Written language.keywords (declaredName className) code before after ∧
          Apart before after)) := by
  rw [check_ne_undeclared_iff hscan, declares_iff hname]
  refine ⟨Iff.rfl, fun hplain => exists₂_congr fun before after => ?_⟩
  refine and_congr_right fun hwritten => ?_
  obtain ⟨hbefore, hlast, hafter⟩ := hplain before after hwritten
  have hident : ∀ {c : Char} {next : Option Char}, next ≠ some '$' → c ∈ next →
      (¬ IsIdent c ↔ isWord c = false) := by
    rintro c _ hne rfl
    have hc : c ≠ '$' := fun h => hne (congrArg some h)
    simp [IsIdent, hc]
  constructor
  · rintro ⟨hstart, hstop⟩
    refine ⟨fun c hc => (hident hbefore hc).mpr (hstart c hc), fun c hc => ?_⟩
    refine (hident hafter hc).mpr ?_
    exact Bool.eq_false_iff.mpr fun hword => hlast (hstop.mpr ⟨c, hc, hword⟩)
  · rintro ⟨hstart, hstop⟩
    refine ⟨fun c hc => (hident hbefore hc).mp (hstart c hc), iff_of_false hlast ?_⟩
    rintro ⟨c, hc, hword⟩
    exact hstop c hc (.inl hword)

def nested : String := "class Outer$Inner\nobject /*class*/ Outer$In { }\n"

theorem declared_iff_nested : ClassName.check "p.Outer$In" = .ok () ∧
    scan .curly nested.toList =
      .ok "class Outer$Inner\nobject           Outer$In { }\n".toList ∧
    ∀ l n, check .scala "p.Outer$In" nested ≠ .error (.undeclared l n) := by
  have hname : ClassName.check "p.Outer$In" = .ok () := ok_of_toOption (by decide +kernel)
  have hscan : scan .curly nested.toList =
      .ok "class Outer$Inner\nobject           Outer$In { }\n".toList :=
    ok_of_toOption (by decide +kernel)
  have hgap : Gap (List.replicate 11 ' ') := ⟨by decide, List.all_eq_true.mp rfl⟩
  have hbefore : "class Outer$Inner\n".toList.getLast? = some '\n' := rfl
  have hlast : (declaredName "p.Outer$In").getLast? = some 'n' := rfl
  have hafter : " { }\n".toList.head? = some ' ' := rfl
  refine ⟨hname, hscan, (declared_iff hname hscan).1.mpr ⟨"class Outer$Inner\n".toList,
    " { }\n".toList, ⟨"object", by decide, _, hgap, rfl⟩, ?_, ?_⟩⟩
  · rw [hbefore]
    rintro _ ⟨⟩
    rfl
  · rw [hlast, hafter]
    refine iff_of_false (by decide) ?_
    rintro ⟨_, ⟨⟩, hword⟩
    cases hword

/-- A name that ends in a dollar sign is missed where it is declared, and a name is taken to be
declared where a longer one is that goes on with a dollar sign. -/
theorem dollar_hides_declaration : ClassName.check "A$" = .ok () ∧
    check .java "A$" "class A$ { }" = .error (.undeclared .java "A$") ∧
    (∃ before after, Written ["class"] (declaredName "A$") "class A$ { }".toList before after ∧
      Apart before after) ∧
    ClassName.check "A" = .ok () ∧ check .java "A" "class A$B { }" = .ok () ∧
    ¬ ∃ before after, Written ["class"] (declaredName "A") "class A$B { }".toList before after ∧
      Apart before after := by
  have hgap : Gap [' '] := ⟨by decide, List.all_eq_true.mp rfl⟩
  refine ⟨ok_of_toOption (by decide +kernel), by decide +kernel,
    ⟨[], " { }".toList, ⟨"class", by decide, _, hgap, rfl⟩, ?_, ?_⟩,
    ok_of_toOption (by decide +kernel), ok_of_toOption (by decide +kernel), ?_⟩
  · simp
  · simp [IsIdent]
    decide
  · rintro ⟨before, after, ⟨k, -, gap, -, hsplit⟩, -, hstop⟩
    have hletter : "class ".toList ++ 'A' :: "$B { }".toList =
        (before ++ k.toList ++ gap) ++ 'A' :: after := by
      have hname : declaredName "A" = ['A'] := rfl
      simpa [hname] using hsplit
    obtain ⟨-, -, rfl⟩ :=
      (List.append_cons_inj_of_notMem (by decide) (by decide)).mp hletter
    exact hstop '$' rfl (.inr rfl)

end Jvm

end FunctionJar
