import FunctionJar.Proofs.Java.Blanking
import FunctionJar.Proofs.Jvm.Declaration
import FunctionJar.Proofs.Sql.Lowering

namespace FunctionJar

namespace Text

theorem mem_toList_join {sep : String} {parts : List String} {c : Char}
    (h : c ∈ (join sep parts).toList) : c ∈ sep.toList ∨ ∃ part ∈ parts, c ∈ part.toList := by
  rw [join, String.toList_intercalate] at h
  refine (mem_intercalate h).imp_right ?_
  rintro ⟨_, hpiece, hc⟩
  obtain ⟨part, hpart, rfl⟩ := List.mem_map.mp hpiece
  exact ⟨part, hpart, hc⟩

theorem exists_toList_join (sep part : String) (parts : List String) :
    ∃ t, (join sep (part :: parts)).toList = part.toList ++ t := by
  rw [join, String.toList_intercalate]
  cases parts with
  | nil => exact ⟨[], by simp [List.intercalate]⟩
  | cons next parts =>
      rw [List.map_cons, List.map_cons, List.intercalate_cons_cons, List.append_assoc]
      exact ⟨_, rfl⟩

end Text

namespace ClassName

variable {name p : String}

theorem Valid.simple_plain (h : Valid name) :
    ∀ c ∈ (simple name).toList, Java.isNumberRest c = true :=
  Java.isNumberRest_of_identifier h.usable_simple.1

theorem Valid.package_plain (h : Valid name) (hp : package name = some p) :
    (∃ c cs, p.toList = c :: cs ∧ isIdentStart c = true) ∧
      ∀ c ∈ p.toList, Java.isNumberRest c = true := by
  obtain ⟨front, last, -, -, hfront, husable⟩ := h.exists_segments
  rw [hp, Option.elim_some] at hfront
  have hjoin : Text.join "." front = p := hfront ▸ Text.join_map_splitAt rfl p
  have hsegments : ∀ segment ∈ front, Usable segment.toList := fun segment hsegment =>
    husable segment (List.mem_append_left _ hsegment)
  constructor
  · obtain ⟨segment, rest, hcons⟩ := List.exists_cons_of_ne_nil (segments_ne_nil p)
    obtain ⟨t, ht⟩ := Text.exists_toList_join "." segment rest
    rw [← hfront, hcons] at hjoin hsegments
    obtain ⟨⟨c, cs, hsegment, hc, -⟩, -⟩ := hsegments segment List.mem_cons_self
    rw [hjoin, hsegment] at ht
    exact ⟨c, cs ++ t, ht, isIdentStart_iff.mpr hc⟩
  · intro c hc
    rw [← hjoin] at hc
    rcases Text.mem_toList_join hc with hpoint | ⟨segment, hsegment, hc⟩
    · rw [List.mem_singleton.mp hpoint]
      rfl
    · exact Java.isNumberRest_of_identifier (hsegments segment hsegment).1 c hc

end ClassName

namespace Sql

open Source

/-- A character of a name, or one of those that stand between names in a list or a test. -/
def isSoft (c : Char) : Bool := Java.isNumberRest c || [' ', ',', '=', '|'].contains c

theorem isPlain_of_isSoft {c : Char} (h : isSoft c = true) : isPlain c = true :=
  isPlain_of_kind (by decide) h

namespace Function

/-- The function with spaces in the place of the strings of its Java expression. -/
def hidden (f : Function) : Function := { f with java := f.java.hidden }

variable {f : Function} {className : String} {java shown : List Char}

def paramText (f : Function) : String :=
  Text.join ", " (f.params.map fun p => p.type.wrapper ++ " " ++ p.name)

def testText (f : Function) : String :=
  Text.join " || " (f.params.map fun p => p.name ++ " == null")

theorem soft_texts (h : Spellable f.params) : (∀ c ∈ f.paramText.toList, isSoft c = true) ∧
    ∀ c ∈ f.testText.toList, isSoft c = true := by
  have hname : ∀ p ∈ f.params, ∀ c ∈ p.name.toList, isSoft c = true := fun p hp c hc => by
    have hidentifier := ClassName.isIdentifier_iff.mp (h p hp).1
    rw [isSoft, Java.isNumberRest_of_identifier hidentifier c hc, Bool.true_or]
  have hjoin : ∀ {sep : String} {word : Param → String}, (∀ c ∈ sep.toList, isSoft c = true) →
      (∀ p ∈ f.params, ∀ c ∈ (word p).toList, isSoft c = true) →
      ∀ c ∈ (Text.join sep (f.params.map word)).toList, isSoft c = true := by
    intro sep word hsep hword c hc
    rcases Text.mem_toList_join hc with hc | ⟨part, hpart, hc⟩
    · exact hsep c hc
    · obtain ⟨p, hp, rfl⟩ := List.mem_map.mp hpart
      exact hword p hp c hc
  have hwrapper : ∀ type : SqlType, ∀ c ∈ (type.wrapper ++ " ").toList, isSoft c = true := by
    intro type
    cases type <;> exact List.all_eq_true.mp rfl
  have htest : ∀ c ∈ " == null".toList, isSoft c = true := List.all_eq_true.mp rfl
  constructor
  · refine hjoin (List.all_eq_true.mp rfl) fun p hp c hc => ?_
    rw [String.toList_append] at hc
    exact (List.mem_append.mp hc).elim (hwrapper p.type c) (hname p hp c)
  · refine hjoin (List.all_eq_true.mp rfl) fun p hp c hc => ?_
    rw [String.toList_append] at hc
    exact (List.mem_append.mp hc).elim (hname p hp c) (htest c)

def frontLines (className : String) : List (List Char) :=
  (match ClassName.package className with
    | some package => ["package ".toList ++ package.toList ++ [';'], []]
    | none => []) ++ ["import org.apache.flink.table.functions.ScalarFunction;".toList, []]

def guardText (f : Function) : List Char :=
  match f.params with
  | [] => []
  | _ => "        if ".toList ++ (('(' :: f.testText.toList ++ [')']) ++ ([' '] ++
      (('{' :: "\n            return null;\n        ".toList ++ ['}']) ++ ['\n'])))

def frame (f : Function) (className : String) (java : List Char) : List Char :=
  unlines (frontLines className) ++
    (("public class " ++ ClassName.simple className ++ " extends ScalarFunction ").toList ++
      (('{' :: (("\n    public " ++ f.returns.wrapper ++ " eval").toList ++
          (('(' :: f.paramText.toList ++ [')']) ++ ([' '] ++
            (('{' :: (['\n'] ++ (f.guardText ++ ("        return ".toList ++
                (java ++ ";\n    ".toList)))) ++ ['}']) ++ ['\n'])))) ++ ['}']) ++ ['\n']))

theorem toList_classText (f : Function) (className : String) :
    (f.classText className).toList = unlines ((f.classLines className).map String.toList) ∧
    (f.classText className).toList = f.frame className f.java.text := by
  have hlines : (f.classText className).toList =
      unlines ((f.classLines className).map String.toList) := by
    rw [classText, String.toList_join, unlines, List.flatMap_map, List.flatMap_map]
    simp
  refine ⟨hlines, hlines.trans ?_⟩
  cases hpackage : ClassName.package className <;> cases hparams : f.params <;>
    simp [unlines, classLines, frame, frontLines, nullCheck, guardText, hpackage, hparams,
      paramText, testText, javaText]

theorem inert_guardText (h : Spellable f.params) : Inert f.guardText := by
  have htests : Inert f.testText.toList :=
    inert_of_plain fun c hc => isPlain_of_isSoft ((soft_texts h).2 c hc)
  have hblank : Inert [' '] := inert_of_all rfl
  have hfeed : Inert ['\n'] := inert_of_all rfl
  have hreturn : Inert "\n            return null;\n        ".toList := inert_of_all rfl
  have hif : Inert "        if ".toList := inert_of_all rfl
  unfold guardText
  split
  · exact inert_of_all rfl
  · exact hif.any_append ((htests.wrap .round fun _ => trivial).any_append
      (hblank.any_append ((hreturn.wrap .curly fun _ => trivial).any_append hfeed)))

theorem inert_name {s : List Char} (h : ∀ c ∈ s, Java.isNumberRest c = true) : Inert s :=
  inert_of_plain fun c hc => Java.isPlain_of_isNumberRest (h c hc)

theorem inert_frontLines (hname : ClassName.Valid className) :
    Inert (unlines (frontLines className)) := by
  have himport : Inert
      (unlines ["import org.apache.flink.table.functions.ScalarFunction;".toList, []]) :=
    inert_of_all rfl
  unfold frontLines
  split
  · next package hpackage =>
      have hkeyword : Inert "package ".toList := inert_of_all rfl
      have hend : Inert ";\n\n".toList := inert_of_all rfl
      have hclause := hkeyword.any_append
        ((inert_name (hname.package_plain hpackage).2).any_append (hend.any_append himport))
      simpa [unlines] using hclause
  · exact himport

theorem fragment_frame (hname : ClassName.Valid className) (hparams : Spellable f.params)
    (hjava : Fragment NoQuote java shown) :
    Fragment Any (f.frame className java) (f.frame className shown) := by
  have hfeed : Inert ['\n'] := inert_of_all rfl
  have hblank : Inert [' '] := inert_of_all rfl
  have hreturn : Inert "        return ".toList := inert_of_all rfl
  have hend : Inert ";\n    ".toList := inert_of_all rfl
  have hstatement := hreturn.any_append (hjava.append hend fun rest _ => by simp [NoQuote])
  have hbody := hfeed.any_append ((inert_guardText hparams).any_append hstatement)
  have hlist : Inert f.paramText.toList :=
    inert_of_plain fun c hc => isPlain_of_isSoft ((soft_texts hparams).1 c hc)
  have heval : Inert ("\n    public " ++ f.returns.wrapper ++ " eval").toList :=
    inert_of_all (by cases f.returns <;> rfl)
  have hmethod := heval.any_append ((hlist.wrap .round fun _ => trivial).any_append
    (hblank.any_append ((hbody.wrap .curly fun _ => trivial).any_append hfeed)))
  have hclass : Inert
      ("public class " ++ ClassName.simple className ++ " extends ScalarFunction ").toList := by
    have hpublic : Inert "public class ".toList := inert_of_all rfl
    have hextends : Inert " extends ScalarFunction ".toList := inert_of_all rfl
    rw [String.toList_append, String.toList_append]
    exact (hpublic.any_append (inert_name hname.simple_plain)).any_append hextends
  exact (inert_frontLines hname).any_append (hclass.any_append
    ((hmethod.wrap .curly fun _ => trivial).any_append hfeed))

def restLines (f : Function) (className : String) : List String :=
  ["import org.apache.flink.table.functions.ScalarFunction;", "",
    "public class " ++ ClassName.simple className ++ " extends ScalarFunction \x7b",
    "    public " ++ f.returns.wrapper ++ " eval(" ++ f.paramText ++ ") \x7b"] ++
  nullCheck f.params ++ ["        return " ++ f.javaText ++ ";", "    \x7d", "\x7d"]

theorem feed_not_mem_of_soft {s : List Char} (h : ∀ c ∈ s, isSoft c = true) : '\n' ∉ s :=
  fun hmem => Bool.false_ne_true (h _ hmem)

theorem clauseless_append {front t : String} (hfront : '\n' ∉ front.toList)
    (hother : startsOther front.toList = true) (ht : '\n' ∉ t.toList) :
    Clauseless (front ++ t).toList := by
  rw [String.toList_append]
  exact ⟨by simp [hfront, ht], .inr (startsOther_append hother)⟩

theorem clauseless_nullCheck (hparams : Spellable f.params) :
    ∀ line ∈ nullCheck f.params, Clauseless line.toList := by
  have htests := feed_not_mem_of_soft (soft_texts hparams).2
  unfold nullCheck
  split
  · simp
  · simp only [List.forall_mem_cons, String.append_assoc]
    refine ⟨clauseless_append (by decide) rfl ?_,
      ⟨by decide, .inr rfl⟩, ⟨by decide, .inr rfl⟩,
      by simp⟩
    rw [String.toList_append, List.mem_append, not_or]
    exact ⟨htests, by decide⟩

theorem clauseless_restLines (hname : ClassName.Valid className) (hparams : Spellable f.params)
    (hjava : '\n' ∉ f.java.text) :
    ∀ line ∈ f.restLines className, Clauseless line.toList := by
  have hclosed : ∀ {line : String}, '\n' ∉ line.toList ∧ startsOther line.toList = true →
      Clauseless line.toList := fun h => ⟨h.1, .inr h.2⟩
  have hsimple : '\n' ∉ (ClassName.simple className).toList := fun hmem =>
    Bool.false_ne_true (hname.simple_plain _ hmem)
  have hwrapper : '\n' ∉ f.returns.wrapper.toList := by cases f.returns <;> decide
  have hlist := feed_not_mem_of_soft (soft_texts hparams).1
  simp only [restLines, List.forall_mem_append, List.forall_mem_cons, String.append_assoc]
  refine ⟨⟨⟨hclosed ⟨by decide, rfl⟩, ⟨by simp, .inl rfl⟩, ?_, ?_, by simp⟩,
    clauseless_nullCheck hparams⟩, ?_, hclosed ⟨by decide, rfl⟩, hclosed ⟨by decide, rfl⟩,
    by simp⟩
  · refine clauseless_append (by decide) rfl ?_
    simpa using hsimple
  · refine clauseless_append (by decide) rfl ?_
    simpa [hlist] using hwrapper
  · refine clauseless_append (by decide) rfl ?_
    simpa [javaText] using hjava

theorem declaredPackage_classText (hname : ClassName.Valid className)
    (hparams : Spellable f.params) (hjava : '\n' ∉ f.java.text) :
    declaredPackage (f.classText className).toList = ClassName.package className := by
  have hrest := firstOnLine_clauseless
    (List.forall_mem_map.mpr (clauseless_restLines hname hparams hjava))
  rw [(toList_classText f className).1, declaredPackage]
  cases hpackage : ClassName.package className with
  | none =>
      have hlines : f.classLines className = f.restLines className := by
        simp [classLines, restLines, paramText, hpackage]
      rw [hlines, hrest]
      rfl
  | some p =>
      obtain ⟨hstart, hplain⟩ := hname.package_plain hpackage
      have hclause : unlines ((f.classLines className).map String.toList) =
          ("package ".toList ++ p.toList ++ [';']) ++ '\n' ::
            unlines (([""] ++ f.restLines className).map String.toList) := by
        simp [classLines, restLines, paramText, hpackage, unlines]
      have hfeed : '\n' ∉ "package ".toList ++ p.toList ++ [';'] := by
        have hmem : '\n' ∉ p.toList := fun hmem => Bool.false_ne_true (hplain _ hmem)
        simpa using hmem
      have hnamed : ∀ rest, packageClause?
          (("package ".toList ++ p.toList ++ [';']) ++ '\n' :: rest) = some p.toList := by
        intro rest
        rw [List.append_assoc _ [';']]
        exact packageClause?_named hstart hplain
      rw [hclause, firstOnLine_line hfeed, hnamed, Option.some_or, Option.map_some,
        String.ofList_toList]

end Function

/-- The Java source of an accepted function is lexically sound, only the strings in it are blanked,
and it declares the package of its class, so that no check before the compiler fails but perhaps the
one that looks for the class. -/
theorem classText_scans {text className : String} {f : Function} (h : Function.parse text = .ok f)
    (hname : ClassName.check className = .ok ()) :
    scan .curly (f.classText className).toList = .ok (f.hidden.classText className).toList ∧
    declaredPackage (f.hidden.classText className).toList = ClassName.package className ∧
    (Jvm.check .java className (f.classText className) = .ok () ∨
      Jvm.check .java className (f.classText className) =
        .error (.undeclared .java (ClassName.simple className))) := by
  obtain ⟨hspelled, hparams⟩ := Function.parse_spelled h
  have hvalid := ClassName.check_eq_ok_iff.mp hname
  have hscan : scan .curly (f.classText className).toList =
      .ok (f.hidden.classText className).toList := by
    rw [(Function.toList_classText f className).2, (Function.toList_classText f.hidden className).2]
    have hexpr := Java.Expr.fragment_text hspelled
    exact (Function.fragment_frame hvalid hparams hexpr).scan_eq trivial
  have hpackage : declaredPackage (f.hidden.classText className).toList =
      ClassName.package className :=
    Function.declaredPackage_classText hvalid hparams (Java.Expr.feed_not_mem_hidden hspelled)
  refine ⟨hscan, hpackage, ?_⟩
  simp only [Jvm.check, hscan, mapError_ok, ok_bind, hpackage]
  cases declares Jvm.Language.java.keywords (ClassName.simple className).toList
    (f.hidden.classText className).toList with
  | true =>
      refine .inl ?_
      simp only [Bool.not_true, Bool.false_eq_true, if_false, ne_eq, not_true]
      rfl
  | false => exact .inr rfl

/-- Strings that hold what begins a literal, a comment or a bracket, a line with a package clause on
it, and nothing at all. -/
def quoting : String :=
  "FUNCTION (a STRING) RETURNS STRING AS a || '\"/*\x7b[(\n package x; //' || ''"

theorem classText_scans_quoting : ∃ f, Function.parse quoting = .ok f ∧
    ClassName.check "p.q.A" = .ok () ∧
    f.hidden.javaText = "String.valueOf(String.valueOf(a) + " ++
      "String.valueOf(\"                       \")) + String.valueOf(\"\")" ∧
    scan .curly (f.classText "p.q.A").toList = .ok (f.hidden.classText "p.q.A").toList ∧
    declaredPackage (f.hidden.classText "p.q.A").toList = some "p.q" ∧
    (Jvm.check .java "p.q.A" (f.classText "p.q.A") = .ok () ∨
      Jvm.check .java "p.q.A" (f.classText "p.q.A") = .error (.undeclared .java "A")) := by
  have hsome : (Function.parse quoting).toOption = some ⟨[⟨"a", .string⟩], .string,
      .concat (.concat (.param ⟨"a", .string⟩) (.str "\"/*\x7b[(\n package x; //")) (.str ""),
      .binary .add (.valueOf (.binary .add (.valueOf (.name "a"))
        (.valueOf (.string "\"/*\x7b[(\n package x; //")))) (.valueOf (.string ""))⟩ := by
    decide +kernel
  have hparse := ok_of_toOption hsome
  have hname : ClassName.check "p.q.A" = .ok () := ok_of_toOption (by decide +kernel)
  have hsimple : ClassName.simple "p.q.A" = "A" := rfl
  have hpackage : ClassName.package "p.q.A" = some "p.q" := rfl
  obtain ⟨hscan, hdeclared, hcheck⟩ := classText_scans hparse hname
  rw [hsimple] at hcheck
  exact ⟨_, hparse, hname, by decide +kernel, hscan, hdeclared.trans hpackage, hcheck⟩

end Sql

end FunctionJar
