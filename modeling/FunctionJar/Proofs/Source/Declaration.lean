import FunctionJar.Proofs.Text.Trim
import FunctionJar.Source.Declaration
import Mathlib.Data.List.Basic

namespace FunctionJar

namespace Text

theorem isBoundary_iff {a b : Option Char} : isBoundary a b = true ↔
    ((∃ c ∈ a, isWord c = true) ↔ ¬ ∃ c ∈ b, isWord c = true) := by
  rw [isBoundary, bne_iff_ne, ne_eq, Bool.eq_iff_iff, Option.any_eq_true, Option.any_eq_true]
  exact not_iff.trans (not_iff_comm.trans iff_comm)

theorem isBoundary_comm (a b : Option Char) : isBoundary a b = isBoundary b a := by
  rw [isBoundary, isBoundary, bne_comm]

theorem isBoundary_some_iff {before : Option Char} {c : Char} (hc : isWord c = true) :
    isBoundary before (some c) = true ↔ ∀ d ∈ before, isWord d = false := by
  simp [isBoundary_iff, hc]

def blankCodes : List Nat := [9, 10, 11, 12, 13, 0x20, 0x85, 0xA0, 0x1680, 0x2000, 0x2001, 0x2002,
  0x2003, 0x2004, 0x2005, 0x2006, 0x2007, 0x2008, 0x2009, 0x200A, 0x2028, 0x2029, 0x202F, 0x205F,
  0x3000]

theorem toNat_mem_blankCodes {c : Char} (h : isBlank c = true) : c.toNat ∈ blankCodes := by
  simp only [isBlank, Bool.or_eq_true, Bool.and_eq_true, decide_eq_true_eq, beq_iff_eq] at h
  simp only [blankCodes, List.mem_cons, List.not_mem_nil, or_false]
  omega

theorem not_blank_of_kind {kind : Char → Bool} {c : Char}
    (hblanks : blankCodes.all fun n => !kind (Char.ofNat n)) (h : kind c = true) :
    isBlank c = false := by
  refine Bool.eq_false_iff.mpr fun hblank => ?_
  have hkind := List.all_eq_true.mp hblanks _ (toNat_mem_blankCodes hblank)
  rw [Char.ofNat_toNat, h] at hkind
  cases hkind

end Text

namespace Source

open Text (isBlank isBoundary isWord trimStart)

/-- What may stand between two words. -/
structure Gap (gap : List Char) : Prop where
  nonempty : gap ≠ []
  blank : ∀ c ∈ gap, isBlank c = true

variable {keywords : List String} {name word s : List Char} {before : Option Char}

theorem behind_iff {p : List Char → Bool} :
    (match word.isPrefixOf? s with
      | some rest => p rest
      | none => false) = true ↔ ∃ rest, s = word ++ rest ∧ p rest = true := by
  cases hword : word.isPrefixOf? s with
  | none =>
      refine iff_of_false (by simp) ?_
      rintro ⟨rest, rfl, -⟩
      rw [List.isPrefixOf?_eq_some_iff_append_eq.mpr rfl] at hword
      cases hword
  | some rest =>
      obtain rfl := List.isPrefixOf?_eq_some_iff_append_eq.mp hword
      simp

theorem isNamed_iff (hname : name ≠ []) : isNamed name before s = true ↔
    ∃ rest, s = name ++ rest ∧ isBoundary name.getLast? rest.head? = true := by
  have hlast : name.getLast?.or before = name.getLast? := by
    rw [List.getLast?_eq_some_getLast hname, Option.some_or]
  rw [← hlast]
  exact behind_iff

theorem isNamedBehindBlanks_iff (hname : name ≠ []) : isNamedBehindBlanks name s = true ↔
    ∃ gap rest, s = gap ++ name ++ rest ∧ Gap gap ∧ isBoundary name.getLast? rest.head? = true := by
  induction s with
  | nil =>
      refine iff_of_false (by simp [isNamedBehindBlanks]) ?_
      rintro ⟨gap, rest, hsplit, hgap, -⟩
      simp [hgap.nonempty] at hsplit
  | cons c s ih =>
      rw [isNamedBehindBlanks, Bool.and_eq_true, Bool.or_eq_true, isNamed_iff hname, ih]
      constructor
      · rintro ⟨hc, ⟨rest, rfl, hend⟩ | ⟨gap, rest, rfl, hgap, hend⟩⟩
        · exact ⟨[c], rest, rfl, ⟨by simp, by simpa using hc⟩, hend⟩
        · exact ⟨c :: gap, rest, rfl, ⟨by simp, List.forall_mem_cons.mpr ⟨hc, hgap.blank⟩⟩, hend⟩
      · rintro ⟨_ | ⟨d, gap⟩, rest, hsplit, hgap, hend⟩
        · exact absurd rfl hgap.nonempty
        · obtain ⟨rfl, rfl⟩ := List.cons.inj hsplit
          obtain ⟨hc, hblank⟩ := List.forall_mem_cons.mp hgap.blank
          refine ⟨hc, ?_⟩
          rcases eq_or_ne gap [] with rfl | hne
          · exact .inl ⟨rest, rfl, hend⟩
          · exact .inr ⟨gap, rest, rfl, ⟨hne, hblank⟩, hend⟩

/-- The keyword stands first, with blanks and the whole name behind it. -/
def Declared (keyword : String) (name s : List Char) : Prop :=
  ∃ gap rest, s = keyword.toList ++ (gap ++ name ++ rest) ∧ Gap gap ∧
    isBoundary name.getLast? rest.head? = true

theorem keyword_declared_iff {keyword : String} (hname : name ≠ []) :
    (match keyword.toList.isPrefixOf? s with
      | some rest => isNamedBehindBlanks name rest
      | none => false) = true ↔ Declared keyword name s := by
  refine behind_iff.trans ⟨?_, ?_⟩
  · rintro ⟨after, rfl, hnamed⟩
    obtain ⟨gap, rest, rfl, hgap, hend⟩ := (isNamedBehindBlanks_iff hname).mp hnamed
    exact ⟨gap, rest, rfl, hgap, hend⟩
  · rintro ⟨gap, rest, rfl, hgap, hend⟩
    exact ⟨_, rfl, (isNamedBehindBlanks_iff hname).mpr ⟨gap, rest, rfl, hgap, hend⟩⟩

theorem isDeclared_iff (hname : name ≠ []) :
    isDeclared keywords name s = true ↔ ∃ k ∈ keywords, Declared k name s := by
  rw [isDeclared, List.any_eq_true]
  exact exists_congr fun k => and_congr_right fun _ => keyword_declared_iff hname

theorem Declared.head {keyword : String} (h : Declared keyword name s)
    (hkeyword : keyword.toList ≠ []) : keyword.toList.head? = s.head? := by
  obtain ⟨gap, rest, rfl, -⟩ := h
  obtain ⟨c, cs, hcons⟩ := List.exists_cons_of_ne_nil hkeyword
  rw [hcons]
  rfl

theorem declaresFrom_iff (hname : name ≠ []) (hkeywords : ∀ k ∈ keywords, k.toList ≠ []) :
    declaresFrom keywords name before s = true ↔ ∃ front t, s = front ++ t ∧
      ∃ k ∈ keywords, isBoundary (front.getLast?.or before) k.toList.head? = true ∧
        Declared k name t := by
  induction s generalizing before with
  | nil =>
      refine iff_of_false (by simp [declaresFrom]) ?_
      rintro ⟨front, t, hsplit, k, hk, -, gap, rest, rfl, -⟩
      simp [hkeywords k hk] at hsplit
  | cons c s ih =>
      rw [declaresFrom, Bool.or_eq_true, Bool.and_eq_true, isDeclared_iff hname, ih]
      constructor
      · rintro (⟨hstart, k, hk, hdeclared⟩ | ⟨front, t, rfl, k, hk, hstart, hdeclared⟩)
        · refine ⟨[], c :: s, rfl, k, hk, ?_, hdeclared⟩
          rw [hdeclared.head (hkeywords k hk)]
          exact hstart
        · refine ⟨c :: front, t, rfl, k, hk, ?_, hdeclared⟩
          rwa [List.getLast?_cons, Option.or_some] at *
      · rintro ⟨_ | ⟨d, front⟩, t, hsplit, k, hk, hstart, hdeclared⟩
        · obtain rfl : c :: s = t := hsplit
          rw [hdeclared.head (hkeywords k hk)] at hstart
          exact .inl ⟨hstart, k, hk, hdeclared⟩
        · obtain ⟨rfl, rfl⟩ := List.cons.inj hsplit
          refine .inr ⟨front, t, rfl, k, hk, ?_, hdeclared⟩
          rwa [List.getLast?_cons, Option.or_some] at *

section Lines

variable {α : Type} {find : List Char → Option α} {atStart : Bool}

def StartsLine (atStart : Bool) (front : List Char) : Prop :=
  (front = [] ∧ atStart = true) ∨ front.getLast? = some '\n'

theorem startsLine_cons {c : Char} {front : List Char} :
    StartsLine atStart (c :: front) ↔ StartsLine (c == '\n') front := by
  rcases front.eq_nil_or_concat with rfl | ⟨front, d, rfl⟩
  · simp [StartsLine]
  · simp [StartsLine, List.getLast?_cons]

theorem firstOnLine_isSome_iff (hnil : find [] = none) :
    (firstOnLine find atStart s).isSome = true ↔
      ∃ front t, s = front ++ t ∧ StartsLine atStart front ∧ (find t).isSome = true := by
  induction s generalizing atStart with
  | nil => simp [firstOnLine, hnil]
  | cons c s ih =>
      rw [firstOnLine, Option.isSome_or, Bool.or_eq_true, ih]
      constructor
      · rintro (h | ⟨front, t, rfl, hstart, hfind⟩)
        · cases atStart with
          | false => cases h
          | true => exact ⟨[], c :: s, rfl, .inl ⟨rfl, rfl⟩, h⟩
        · exact ⟨c :: front, t, rfl, startsLine_cons.mpr hstart, hfind⟩
      · rintro ⟨_ | ⟨d, front⟩, t, hsplit, hstart, hfind⟩
        · obtain rfl : c :: s = t := hsplit
          obtain ⟨-, rfl⟩ | hlast := hstart
          · exact .inl hfind
          · cases hlast
        · obtain ⟨rfl, rfl⟩ := List.cons.inj hsplit
          exact .inr ⟨front, t, rfl, startsLine_cons.mp hstart, hfind⟩

theorem firstOnLine_line {line rest : List Char} (hline : '\n' ∉ line) :
    firstOnLine find true (line ++ '\n' :: rest) =
      (find (line ++ '\n' :: rest)).or (firstOnLine find true rest) := by
  have hwithin : ∀ {t : List Char}, '\n' ∉ t →
      firstOnLine find false (t ++ '\n' :: rest) = firstOnLine find true rest := by
    intro t ht
    induction t with
    | nil => rfl
    | cons c t ih =>
        rw [List.mem_cons, not_or] at ht
        have hc : (c == '\n') = false := beq_false_of_ne (Ne.symm ht.1)
        rw [List.cons_append, firstOnLine, hc, ih ht.2]
        rfl
  cases line with
  | nil => rfl
  | cons c line =>
      rw [List.mem_cons, not_or] at hline
      have hc : (c == '\n') = false := beq_false_of_ne (Ne.symm hline.1)
      rw [List.cons_append, firstOnLine, hc, hwithin hline.2]
      rfl

end Lines

theorem isDefinition_iff (hname : name ≠ []) : isDefinition name s = true ↔
    Declared "def" name s ∨
    (∃ wide t, s = "async".toList ++ (wide ++ t) ∧ Gap wide ∧ Declared "def" name t) ∨
    Declared "class" name s := by
  have hclass : isDeclared ["class"] name s = true ↔ Declared "class" name s := by
    simp [isDeclared_iff hname]
  rw [isDefinition, Bool.or_eq_true, Bool.or_eq_true, or_assoc]
  refine or_congr (keyword_declared_iff hname) (or_congr (behind_iff.trans ?_) hclass)
  constructor
  · rintro ⟨after, rfl, hafter⟩
    obtain ⟨hblank, hdef⟩ := Bool.and_eq_true_iff.mp hafter
    cases after with
    | nil => cases hblank
    | cons c after =>
        have hc : isBlank c = true := hblank
        obtain ⟨w, hsplit, hw⟩ := Text.exists_blanks after
        have htrim : trimStart (c :: after) = trimStart after := List.dropWhile_cons_of_pos hc
        rw [htrim] at hdef
        have hwide : Gap (c :: w) := ⟨by simp, List.forall_mem_cons.mpr ⟨hc, hw⟩⟩
        refine ⟨c :: w, _, ?_, hwide, (keyword_declared_iff hname).mp hdef⟩
        rw [List.cons_append, ← hsplit]
  · rintro ⟨wide, t, rfl, hwide, hdef⟩
    have htrim : trimStart (wide ++ t) = t := by
      obtain ⟨gap, rest, rfl, -⟩ := hdef
      exact Text.trimStart_append hwide.blank (by rintro c ⟨⟩; rfl)
    have hnamed := (keyword_declared_iff hname).mpr hdef
    refine ⟨_, rfl, Bool.and_eq_true_iff.mpr ⟨?_, htrim.symm ▸ hnamed⟩⟩
    obtain ⟨c, wide, rfl⟩ := List.exists_cons_of_ne_nil hwide.nonempty
    exact hwide.blank c List.mem_cons_self

/-- One equals sign stands behind the name and any blanks, and something else follows. -/
def Assigned (name s : List Char) : Prop :=
  ∃ gap c rest, s = name ++ (gap ++ '=' :: c :: rest) ∧ (∀ d ∈ gap, isBlank d = true) ∧ c ≠ '='

theorem isAssignment_iff : isAssignment name s = true ↔ Assigned name s := by
  unfold isAssignment
  split
  · next hword =>
      refine iff_of_false Bool.false_ne_true ?_
      rintro ⟨gap, c, rest, rfl, -⟩
      rw [List.isPrefixOf?_eq_some_iff_append_eq.mpr rfl] at hword
      cases hword
  · next after hword =>
      obtain rfl := List.isPrefixOf?_eq_some_iff_append_eq.mp hword
      have hassigned : Assigned name (name ++ after) ↔
          ∃ c rest, trimStart after = '=' :: c :: rest ∧ c ≠ '=' := by
        constructor
        · rintro ⟨gap, c, rest, hsplit, hgap, hc⟩
          obtain rfl := List.append_cancel_left hsplit
          exact ⟨c, rest, Text.trimStart_append hgap (by rintro d ⟨⟩; rfl), hc⟩
        · rintro ⟨c, rest, htrim, hc⟩
          obtain ⟨gap, hsplit, hgap⟩ := Text.exists_blanks after
          exact ⟨gap, c, rest, by rw [← htrim, ← hsplit], hgap, hc⟩
      rw [hassigned]
      split
      · next c rest htrim => simp [htrim]
      · next hother =>
          refine iff_of_false Bool.false_ne_true ?_
          rintro ⟨c, rest, htrim, -⟩
          exact hother c rest htrim

/-- The text starts with a definition of the name or with an assignment to it. -/
def Bound (name s : List Char) : Prop :=
  (Declared "def" name s ∨
    (∃ wide rest, s = "async".toList ++ (wide ++ rest) ∧ Gap wide ∧ Declared "def" name rest) ∨
    Declared "class" name s) ∨ Assigned name s

theorem Bound.exists_head (h : Bound name s) (hname : name ≠ [])
    (hword : ∀ c ∈ name, isWord c = true) : ∃ c t, s = c :: t ∧ isWord c = true := by
  rcases h with (⟨gap, rest, rfl, -⟩ | ⟨wide, rest, rfl, -⟩ | ⟨gap, rest, rfl, -⟩) |
    ⟨gap, c, rest, rfl, -⟩
  · exact ⟨'d', _, rfl, rfl⟩
  · exact ⟨'a', _, rfl, rfl⟩
  · exact ⟨'c', _, rfl, rfl⟩
  · obtain ⟨d, ds, rfl⟩ := List.exists_cons_of_ne_nil hname
    exact ⟨d, _, rfl, hword d List.mem_cons_self⟩

theorem binds_iff (hname : name ≠ []) : binds name s = true ↔ ∃ front t, s = front ++ t ∧
    (front = [] ∨ front.getLast? = some '\n') ∧ Bound name t := by
  have hfind : ∀ t, (if isDefinition name t || isAssignment name t then some () else none).isSome =
      true ↔ isDefinition name t = true ∨ isAssignment name t = true := by
    intro t
    rw [← Bool.or_eq_true]
    cases isDefinition name t || isAssignment name t <;> simp
  obtain ⟨c, cs, rfl⟩ := List.exists_cons_of_ne_nil hname
  rw [binds, firstOnLine_isSome_iff rfl]
  simp only [hfind, isDefinition_iff hname, isAssignment_iff, StartsLine, and_true, Bound]

section Package

variable {lines : List (List Char)} {line rest : List Char}

def unlines (lines : List (List Char)) : List Char := lines.flatMap (· ++ ['\n'])

def startsOther (s : List Char) : Bool :=
  match trimStart s with
  | [] => false
  | c :: t => c != 'p' || t.head? == some 'u'

theorem startsOther_append {t : List Char} (h : startsOther s = true) :
    startsOther (s ++ t) = true := by
  unfold startsOther at h ⊢
  split at h
  · cases h
  · next c u htrim =>
      have hlong : trimStart (s ++ t) = c :: (u ++ t) := by
        rw [trimStart] at htrim ⊢
        rw [List.dropWhile_append, htrim]
        rfl
      rw [hlong]
      cases u with
      | nil =>
          rw [Bool.or_eq_true] at h ⊢
          exact .inl (h.resolve_right (by decide))
      | cons d u => exact h

theorem packageClause?_eq_none (h : startsOther s = true) : packageClause? s = none := by
  unfold startsOther at h
  split at h
  · cases h
  · next c t htrim =>
      have hkeyword : "package".toList.isPrefixOf? (c :: t) = none := by
        refine Option.eq_none_iff_forall_ne_some.mpr fun rest hrest => ?_
        have hsplit : 'p' :: 'a' :: ("ckage".toList ++ rest) = c :: t :=
          List.isPrefixOf?_eq_some_iff_append_eq.mp hrest
        obtain ⟨rfl, rfl⟩ := List.cons.inj hsplit
        cases h
      simp only [packageClause?, htrim, hkeyword, Option.bind_eq_bind, Option.bind_none]

theorem packageClause?_feed (s : List Char) : packageClause? ('\n' :: s) = packageClause? s := rfl

theorem packageClause?_named (hname : ∃ c cs, name = c :: cs ∧ ClassName.isIdentStart c = true)
    (hrest : ∀ c ∈ name, isPackageRest c = true) :
    packageClause? ("package ".toList ++ name ++ ';' :: rest) = some name := by
  obtain ⟨c, cs, rfl, hc⟩ := hname
  have hblank : isBlank c = false := Text.not_blank_of_kind (by decide) hc
  have hcs : (cs ++ ';' :: rest).takeWhile isPackageRest = cs := by
    rw [List.takeWhile_append_of_pos (List.forall_mem_cons.mp hrest).2]
    simp [isPackageRest, ClassName.isIdentRest]
  have htrim : trimStart (' ' :: c :: (cs ++ ';' :: rest)) = c :: (cs ++ ';' :: rest) :=
    Text.trimStart_append (s := [' ']) (List.all_eq_true.mp rfl) (by rintro d ⟨⟩; exact hblank)
  have hclause : packageClause? ("package ".toList ++ c :: cs ++ ';' :: rest) =
      match trimStart (' ' :: c :: (cs ++ ';' :: rest)) with
      | [] => none
      | d :: t =>
        if ClassName.isIdentStart d then some (d :: t.takeWhile isPackageRest) else none := rfl
  rw [hclause, htrim]
  simp only [hc, if_true, hcs]

/-- A line with which no package clause begins, whatever stands behind it. -/
structure Clauseless (line : List Char) : Prop where
  feed : '\n' ∉ line
  other : line = [] ∨ startsOther line = true

theorem firstOnLine_clauseless (h : ∀ line ∈ lines, Clauseless line) :
    firstOnLine packageClause? true (unlines lines) = none := by
  -- behind an empty line the clause may begin on the next one, where none is found
  have hhead : ∀ {t}, firstOnLine packageClause? true t = none → packageClause? t = none := by
    intro t ht
    cases t with
    | nil => rfl
    | cons c t => exact (Option.or_eq_none_iff.mp ht).1
  induction lines with
  | nil => rfl
  | cons line lines ih =>
      obtain ⟨⟨hfeed, hline⟩, hlines⟩ := List.forall_mem_cons.mp h
      have hrest := ih hlines
      have hunlines : unlines (line :: lines) = line ++ '\n' :: unlines lines := by
        simp [unlines]
      rw [hunlines, firstOnLine_line hfeed, hrest, Option.or_none]
      rcases hline with rfl | hother
      · exact (packageClause?_feed _).trans (hhead hrest)
      · exact packageClause?_eq_none (startsOther_append hother)

end Package

end Source

end FunctionJar
