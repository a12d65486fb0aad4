import FunctionJar.ClassName
import FunctionJar.Proofs.Text

namespace FunctionJar

namespace Text

theorem not_mem_of_mem_splitAt {sep : Char} {s piece : List Char} (h : piece ∈ splitAt sep s) :
    sep ∉ piece := by
  induction s generalizing piece with
  | nil =>
      rw [splitAt, List.mem_singleton] at h
      rw [h]
      exact List.not_mem_nil
  | cons c s ih =>
      unfold splitAt at h
      split at h
      · rcases List.mem_cons.mp h with rfl | h
        · exact List.not_mem_nil
        · exact ih h
      · next hc =>
          split at h
          · next hs => exact absurd hs (splitAt_ne_nil sep s)
          · next first pieces hs =>
              rcases List.mem_cons.mp h with rfl | h
              · rw [List.mem_cons, not_or]
                exact ⟨Ne.symm hc, ih (hs ▸ List.mem_cons_self)⟩
              · exact ih (hs ▸ List.mem_cons_of_mem first h)

theorem splitAt_intercalate {sep : Char} {pieces : List (List Char)} (hne : pieces ≠ [])
    (h : ∀ piece ∈ pieces, sep ∉ piece) : splitAt sep (List.intercalate [sep] pieces) = pieces := by
  induction pieces with
  | nil => exact absurd rfl hne
  | cons piece pieces ih =>
      have hpiece := h piece List.mem_cons_self
      cases pieces with
      | nil => simpa [List.intercalate] using splitAt_of_not_mem hpiece
      | cons next pieces =>
          have hrest := ih (by simp) fun p hp => h p (List.mem_cons_of_mem piece hp)
          have hjoin : List.intercalate [sep] (piece :: next :: pieces) =
              piece ++ sep :: List.intercalate [sep] (next :: pieces) := by
            simp [List.intercalate, List.intersperse]
          rw [hjoin, splitAt_append, splitAt_of_not_mem hpiece, hrest, List.singleton_append]

theorem mem_intercalate {c : Char} {sep : List Char} {pieces : List (List Char)}
    (h : c ∈ List.intercalate sep pieces) : c ∈ sep ∨ ∃ piece ∈ pieces, c ∈ piece := by
  induction pieces with
  | nil => simp [List.intercalate] at h
  | cons piece pieces ih =>
      cases pieces with
      | nil => exact .inr ⟨piece, List.mem_cons_self, by simpa [List.intercalate] using h⟩
      | cons next pieces =>
          rw [List.intercalate_cons_cons, List.mem_append, List.mem_append] at h
          rcases h with (h | h) | h
          · exact .inr ⟨piece, List.mem_cons_self, h⟩
          · exact .inl h
          · rcases ih h with hsep | ⟨other, hother, hc⟩
            · exact .inl hsep
            · exact .inr ⟨other, List.mem_cons_of_mem _ hother, hc⟩

end Text

namespace ClassName

def Starts (c : Char) : Prop := ('A' ≤ c ∧ c ≤ 'Z') ∨ ('a' ≤ c ∧ c ≤ 'z') ∨ c = '_' ∨ c = '$'

/-- What the expression `[A-Za-z_$][A-Za-z0-9_$]*` matches. -/
def Identifier (s : List Char) : Prop :=
  ∃ c cs, s = c :: cs ∧ Starts c ∧ ∀ d ∈ cs, Starts d ∨ ('0' ≤ d ∧ d ≤ '9')

def Usable (segment : List Char) : Prop :=
  Identifier segment ∧ String.ofList segment ∉ reserved

/-- A name is its segments with one point between any two. -/
structure Splits (name : String) (parts : List (List Char)) : Prop where
  nonempty : parts ≠ []
  pointless : ∀ part ∈ parts, '.' ∉ part
  joined : List.intercalate ['.'] parts = name.toList

def Valid (name : String) : Prop := ∃ parts, Splits name parts ∧ ∀ part ∈ parts, Usable part

inductive SegmentObjection (name : String) (segment : List Char) : String → Prop
  | empty (h : segment = []) :
      SegmentObjection name segment s!"class name '{name}' has an empty segment"
  | notIdentifier (hne : segment ≠ []) (h : ¬ Identifier segment) :
      SegmentObjection name segment
        s!"class name '{name}': '{String.ofList segment}' is not a valid identifier"
  | reserved (hidentifier : Identifier segment) (h : String.ofList segment ∈ ClassName.reserved) :
      SegmentObjection name segment
        s!"class name '{name}': '{String.ofList segment}' is a reserved word"

/-- What is said against a name, because of its first segment that cannot be used. -/
inductive Objection (name : String) : String → Prop
  | empty (h : name = "") : Objection name "class name is empty"
  | segment {before after part text} (hname : name ≠ "")
      (hsplits : Splits name (before ++ part :: after)) (hbefore : ∀ p ∈ before, Usable p)
      (h : SegmentObjection name part text) : Objection name text

theorem isIdentStart_iff {c : Char} : isIdentStart c ↔ Starts c := by
  have halpha : c.isAlpha = (decide ('A'.val ≤ c.val ∧ c.val ≤ 'Z'.val) ||
      (decide ('a'.val ≤ c.val) && decide (c.val ≤ 'z'.val))) := rfl
  simp only [isIdentStart, Starts, halpha, Bool.or_eq_true, Bool.and_eq_true, decide_eq_true_eq,
    beq_iff_eq, or_assoc]
  rfl

theorem isIdentRest_iff {c : Char} :
    isIdentRest c ↔ Starts c ∨ ('0' ≤ c ∧ c ≤ '9') := by
  have hdigit : c.isDigit ↔ '0' ≤ c ∧ c ≤ '9' := by
    simp only [Char.isDigit, Bool.and_eq_true, decide_eq_true_eq]
    rfl
  rw [← isIdentStart_iff, ← hdigit]
  simp only [isIdentRest, isIdentStart, Char.isAlphanum, Bool.or_eq_true]
  grind

theorem isIdentifier_iff {s : List Char} : isIdentifier s ↔ Identifier s := by
  cases s with
  | nil => simp [isIdentifier, Identifier]
  | cons c cs =>
      rw [isIdentifier, Bool.and_eq_true, List.all_eq_true, isIdentStart_iff]
      simp only [isIdentRest_iff]
      constructor
      · rintro ⟨hc, hcs⟩
        exact ⟨c, cs, rfl, hc, hcs⟩
      · rintro ⟨d, ds, he, hd, hds⟩
        obtain ⟨rfl, rfl⟩ := List.cons.inj he
        exact ⟨hd, hds⟩

theorem Identifier.isIdentRest {s : List Char} (h : Identifier s) :
    ∀ c ∈ s, ClassName.isIdentRest c = true := by
  obtain ⟨c, cs, rfl, hc, hcs⟩ := h
  simp only [List.forall_mem_cons, isIdentRest_iff]
  exact ⟨.inl hc, hcs⟩

theorem splits_iff {name : String} {parts : List (List Char)} :
    Splits name parts ↔ parts = Text.splitAt '.' name.toList := by
  constructor
  · intro h
    rw [← h.joined, Text.splitAt_intercalate h.nonempty h.pointless]
  · rintro rfl
    exact ⟨Text.splitAt_ne_nil _ _, fun _ => Text.not_mem_of_mem_splitAt,
      Text.intercalate_splitAt _ _⟩

theorem ofList_eq_empty_iff {part : List Char} : String.ofList part = "" ↔ part = [] := by
  rw [← String.toList_inj, String.toList_ofList]
  rfl

theorem segmentFault?_eq_none_iff {name : String} {part : List Char} :
    segmentFault? name (String.ofList part) = none ↔ Usable part := by
  have hempty : ¬ Usable [] := by
    rintro ⟨⟨c, cs, h, -⟩, -⟩
    cases h
  unfold segmentFault?
  simp only [ofList_eq_empty_iff, String.toList_ofList]
  by_cases hne : part = []
  · simp [hne, hempty]
  · by_cases hident : isIdentifier part
    · by_cases hreserved : String.ofList part ∈ reserved
      · simp [hne, hident, hreserved, Usable]
      · simp [hne, hident, hreserved, Usable, isIdentifier_iff.mp hident]
    · have hno : ¬ Identifier part := fun h => hident (isIdentifier_iff.mpr h)
      simp [hne, hident, Usable, hno]

theorem objection_of_segmentFault? {name : String} {part : List Char} {f : Fault}
    (h : segmentFault? name (String.ofList part) = some f) :
    SegmentObjection name part f.message := by
  unfold segmentFault? at h
  simp only [ofList_eq_empty_iff, String.toList_ofList] at h
  split at h
  · next hempty =>
      obtain rfl := Option.some.inj h
      exact .empty hempty
  · next hne =>
      split at h
      · next hident =>
          obtain rfl := Option.some.inj h
          exact .notIdentifier hne fun hi => by simp [isIdentifier_iff.mpr hi] at hident
      · next hident =>
          split at h
          · next hreserved =>
              obtain rfl := Option.some.inj h
              exact .reserved (isIdentifier_iff.mp (by simpa using hident)) hreserved
          · cases h

theorem fault?_eq_none_iff {name : String} : fault? name = none ↔ Valid name := by
  have hsegments : (segments name).findSome? (segmentFault? name) = none ↔ Valid name := by
    rw [segments, List.findSome?_eq_none_iff]
    simp only [List.mem_map, forall_exists_index, and_imp, forall_apply_eq_imp_iff₂,
      segmentFault?_eq_none_iff]
    constructor
    · exact fun h => ⟨_, splits_iff.mpr rfl, h⟩
    · rintro ⟨parts, hsplits, h⟩
      rwa [splits_iff.mp hsplits] at h
  unfold fault?
  split
  · next hempty =>
      -- the empty name has one segment, which is empty
      rw [← hsegments, hempty]
      decide
  · exact hsegments

theorem check_eq_ok_iff {name : String} : check name = .ok () ↔ Valid name := by
  rw [← fault?_eq_none_iff, check]
  cases fault? name <;> simp

theorem objection_of_fault? {name : String} {f : Fault} (h : fault? name = some f) :
    Objection name f.message := by
  unfold fault? at h
  split at h
  · next hempty =>
      obtain rfl := Option.some.inj h
      exact .empty hempty
  · next hname =>
      rw [segments, List.findSome?_map] at h
      obtain ⟨before, part, after, hparts, hfault, hbefore⟩ := List.findSome?_eq_some_iff.mp h
      exact .segment hname (splits_iff.mpr hparts.symm)
        (fun p hp => segmentFault?_eq_none_iff.mp (hbefore p hp)) (objection_of_segmentFault? hfault)

end ClassName

end FunctionJar
