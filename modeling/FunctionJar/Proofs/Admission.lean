import FunctionJar.Proofs.ClassName
import FunctionJar.Proofs.Normalization

namespace FunctionJar

namespace Dialect

def spellings : Dialect → List String
  | java => ["java"]
  | scala => ["scala"]
  | python => ["python"]
  | sql => ["sql", "flinksql"]

theorem ofName?_eq_some_iff {s : String} {d : Dialect} : ofName? s = some d ↔ d.name = s := by
  constructor
  · intro h
    simpa using List.find?_some h
  · rintro rfl
    exact ofName?_name d

theorem mem_spellings {s : String} {d : Dialect} :
    s ∈ d.spellings ↔ d.name = s ∨ (s = "flinksql" ∧ d = sql) := by
  cases d <;> simp [spellings, name, eq_comm]

theorem ofTag_eq_ok_iff {tag : String} {d : Dialect} :
    ofTag tag = .ok d ↔ Text.lower (Text.trimText tag) ∈ d.spellings := by
  rw [mem_spellings]
  unfold ofTag
  generalize Text.lower (Text.trimText tag) = key
  dsimp only
  cases hname : ofName? key with
  | some e =>
      obtain rfl := ofName?_eq_some_iff.mp hname
      have hne : e.name ≠ "flinksql" := by cases e <;> decide
      simp only [Except.ok.injEq, hne, false_and, or_false]
      exact ⟨fun h => h ▸ rfl, fun h => (name_injective h).symm⟩
  | none =>
      have hno : ∀ e : Dialect, e.name ≠ key := fun e he => by
        rw [ofName?_eq_some_iff.mpr he] at hname
        cases hname
      by_cases hkey : key = "flinksql"
      · have hd := hno d
        rw [hkey] at hd
        simp [hkey, hd, eq_comm]
      · simp [hkey, hno]

theorem eq_of_ofTag_error {tag key : String} (h : ofTag tag = .error key) :
    key = Text.lower (Text.trimText tag) := by
  unfold ofTag at h
  simp only at h
  split at h
  · cases h
  · split at h
    · cases h
    · exact (Except.error.inj h).symm

end Dialect

namespace Definition

def spelling (d : Definition) : String := Text.lower (Text.trimText d.tag)

def HasSource (d : Definition) : Prop := ∃ c ∈ d.code.toList, Text.isBlank c = false

structure Admissible (d : Definition) (dialect : Dialect) : Prop where
  source : d.HasSource
  name : ClassName.Valid d.trimmedName
  dialect : d.spelling ∈ dialect.spellings

/-- What is said against a definition, whose name may be taken: the first check that it fails. -/
inductive Objection (d : Definition) (taken : Prop) : String → Prop
  | emptySource (h : ¬ d.HasSource) : Objection d taken s!"'{d.trimmedName}' has empty source"
  | badName {text} (hsource : d.HasSource) (h : ClassName.Objection d.trimmedName text) :
      Objection d taken text
  | unknownDialect (hsource : d.HasSource) (hname : ClassName.Valid d.trimmedName)
      (h : ∀ dialect : Dialect, d.spelling ∉ dialect.spellings) :
      Objection d taken s!"unsupported dialect '{d.spelling}'"
  | duplicate {dialect} (hadmissible : d.Admissible dialect) (h : taken) :
      Objection d taken s!"'{d.trimmedName}' is defined more than once in the batch"

variable {d : Definition} {dialect : Dialect} {taken : List String}

theorem isBlankText_eq_false_iff : Text.isBlankText d.code = false ↔ d.HasSource := by
  simp [Text.isBlankText, HasSource]

theorem accept_eq (d : Definition) (taken : List String) : d.accept taken =
    if Text.isBlankText d.code then .error (.emptySource d.trimmedName)
    else match ClassName.fault? d.trimmedName with
      | some f => .error (.badName f)
      | none => match Dialect.ofTag d.tag with
        | .error key => .error (.unknownDialect key)
        | .ok dialect =>
          if d.trimmedName ∈ taken then .error (.duplicate d.trimmedName) else .ok dialect := by
  unfold accept ClassName.check
  dsimp only
  by_cases hblank : Text.isBlankText d.code = true
  · rw [if_pos hblank, if_pos hblank]
    rfl
  · rw [if_neg hblank, if_neg hblank]
    cases ClassName.fault? d.trimmedName with
    | some f => rfl
    | none =>
        cases Dialect.ofTag d.tag with
        | error key => rfl
        | ok dialect => rfl

theorem accept_eq_ok_iff :
    d.accept taken = .ok dialect ↔ d.Admissible dialect ∧ d.trimmedName ∉ taken := by
  rw [accept_eq]
  constructor
  · intro h
    split at h
    · cases h
    · next hsource =>
        split at h
        · cases h
        · next hfault =>
            split at h
            · cases h
            · next e htag =>
                split at h
                · cases h
                · next hfree =>
                    obtain rfl := Except.ok.inj h
                    exact ⟨⟨isBlankText_eq_false_iff.mp (by simpa using hsource),
                      ClassName.fault?_eq_none_iff.mp hfault, Dialect.ofTag_eq_ok_iff.mp htag⟩, hfree⟩
  · rintro ⟨h, hfree⟩
    rw [isBlankText_eq_false_iff.mpr h.source, ClassName.fault?_eq_none_iff.mpr h.name,
      Dialect.ofTag_eq_ok_iff.mpr h.dialect]
    simp [hfree]

theorem objection_of_accept {reason : Rejection} (h : d.accept taken = .error reason) :
    d.Objection (d.trimmedName ∈ taken) reason.message := by
  rw [accept_eq] at h
  split at h
  · next hblank =>
      obtain rfl := Except.error.inj h
      refine .emptySource fun hsource => ?_
      rw [isBlankText_eq_false_iff.mpr hsource] at hblank
      cases hblank
  · next hsource =>
      have hsource' : d.HasSource := isBlankText_eq_false_iff.mp (by simpa using hsource)
      split at h
      · next hfault =>
          obtain rfl := Except.error.inj h
          exact .badName hsource' (ClassName.objection_of_fault? hfault)
      · next hfault =>
          have hname := ClassName.fault?_eq_none_iff.mp hfault
          split at h
          · next key htag =>
              obtain rfl := Except.error.inj h
              obtain rfl := Dialect.eq_of_ofTag_error htag
              refine .unknownDialect hsource' hname fun e he => ?_
              rw [Dialect.ofTag_eq_ok_iff.mpr he] at htag
              cases htag
          · next e htag =>
              split at h
              · next htaken =>
                  obtain rfl := Except.error.inj h
                  exact .duplicate ⟨hsource', hname, Dialect.ofTag_eq_ok_iff.mp htag⟩ htaken
              · cases h

end Definition

namespace Normalized

/-- A name is claimed in front of a place if a unit in front of it has the name. -/
def Claimed (ns : List Normalized) (i : Nat) (name : String) : Prop :=
  ∃ j < i, ∃ u, ns[j]? = some (ready u) ∧ u.className = name

/-- What is said of a definition, whatever its place is. -/
def verdict (n : Normalized) : String × Option Dialect × Option Rejection :=
  (n.className, n.unit?.map (·.dialect), n.reason?)

theorem mem_readyNames_take (ns : List Normalized) (i : Nat) (name : String) :
    name ∈ readyNames (ns.take i) ↔ Claimed ns i name := by
  have hunit : ∀ (n : Normalized) (u : SourceUnit), n.unit? = some u ↔ n = ready u := by
    intro n u
    cases n <;> simp [unit?]
  simp only [readyNames, List.mem_map, List.mem_filterMap, hunit]
  constructor
  · rintro ⟨u, ⟨n, hn, rfl⟩, hname⟩
    obtain ⟨j, hj⟩ := List.mem_iff_getElem?.mp hn
    rw [List.getElem?_take] at hj
    split at hj
    · next hlt => exact ⟨j, hlt, u, hj, hname⟩
    · cases hj
  · rintro ⟨j, hlt, u, hj, hname⟩
    refine ⟨u, ⟨ready u, List.mem_iff_getElem?.mpr ⟨j, ?_⟩, rfl⟩, hname⟩
    rw [List.getElem?_take_of_lt hlt, hj]

end Normalized

namespace Definition

open Normalized

theorem normalizeOne_congr (d : Definition) (index : Nat) {taken taken' : List String}
    (h : ∀ name, name ∈ taken ↔ name ∈ taken') :
    d.normalizeOne index taken = d.normalizeOne index taken' := by
  unfold normalizeOne
  rw [accept_eq, accept_eq]
  simp only [h]

theorem getElem?_normalize {ds : List Definition} {i : Nat} {d : Definition}
    (h : ds[i]? = some d) :
    (normalize ds)[i]? = some (d.normalizeOne i (readyNames ((normalize ds).take i))) := by
  obtain ⟨hi, rfl⟩ := List.getElem?_eq_some_iff.mp h
  have hlength : (normalizeFrom 0 [] (ds.take i)).length = i := by
    rw [length_normalizeFrom, List.length_take, Nat.min_eq_left (Nat.le_of_lt hi)]
  have hsplit := normalizeFrom_append (ds.take i) (ds.drop i) 0 []
  rw [List.take_append_drop, List.drop_eq_getElem_cons hi, normalizeFrom] at hsplit
  rw [normalize, hsplit, List.getElem?_append_right (Nat.le_of_eq hlength), hlength, Nat.sub_self,
    List.getElem?_cons_zero, List.take_left' hlength, List.length_take,
    Nat.min_eq_left (Nat.le_of_lt hi), Nat.zero_add]
  exact congrArg some (normalizeOne_congr _ _ fun name => by simp)

theorem normalizeOne_ready_iff {d : Definition} {index : Nat} {taken : List String}
    {dialect : Dialect} :
    d.normalizeOne index taken = .ready ⟨index, d.task, d.trimmedName, dialect, d.code⟩ ↔
      d.Admissible dialect ∧ d.trimmedName ∉ taken := by
  rw [← accept_eq_ok_iff, normalizeOne]
  cases d.accept taken <;> simp

theorem normalizeOne_cases (d : Definition) (index : Nat) (taken : List String) :
    (∃ dialect, d.normalizeOne index taken =
      .ready ⟨index, d.task, d.trimmedName, dialect, d.code⟩) ∨
    ∃ reason, d.normalizeOne index taken = .rejected index d.trimmedName reason ∧
      d.Objection (d.trimmedName ∈ taken) reason.message := by
  unfold normalizeOne
  cases h : d.accept taken with
  | ok dialect => exact .inl ⟨dialect, rfl⟩
  | error reason => exact .inr ⟨reason, rfl, objection_of_accept h⟩

theorem readyNames_normalizeFrom (ds : List Definition) (index : Nat) (taken : List String) :
    (readyNames (normalizeFrom index taken ds)).Nodup ∧
      ∀ name ∈ readyNames (normalizeFrom index taken ds), name ∉ taken := by
  induction ds generalizing index taken with
  | nil => simp [normalizeFrom, readyNames]
  | cons d rest ih =>
      rw [normalizeFrom, readyNames_cons]
      rcases normalizeOne_cases d index taken with ⟨dialect, hready⟩ | ⟨reason, hrejected, -⟩
      · have hfree := (normalizeOne_ready_iff.mp hready).2
        obtain ⟨hnodup, hnew⟩ := ih (index + 1) (d.trimmedName :: taken)
        have hnew' : ∀ name ∈ readyNames (normalizeFrom (index + 1) (d.trimmedName :: taken) rest),
            name ≠ d.trimmedName ∧ name ∉ taken := by
          simpa only [List.mem_cons, not_or] using hnew
        rw [hready]
        refine ⟨List.nodup_cons.mpr ⟨fun hmem => (hnew' _ hmem).1 rfl, hnodup⟩, fun name hmem => ?_⟩
        rcases List.mem_cons.mp hmem with rfl | hmem
        · exact hfree
        · exact (hnew' name hmem).2
      · rw [hrejected]
        exact ih (index + 1) taken

theorem verdict_normalizeOne (d : Definition) (i j : Nat) (taken : List String) :
    (d.normalizeOne i taken).verdict = (d.normalizeOne j taken).verdict ∧
      (d.normalizeOne i taken).unit?.map SourceUnit.className =
        (d.normalizeOne j taken).unit?.map SourceUnit.className := by
  unfold normalizeOne
  cases d.accept taken <;> exact ⟨rfl, rfl⟩

theorem verdict_normalizeFrom (ds : List Definition) (i j : Nat) (taken : List String) :
    (normalizeFrom i taken ds).map verdict = (normalizeFrom j taken ds).map verdict := by
  induction ds generalizing i j taken with
  | nil => rfl
  | cons d rest ih =>
      obtain ⟨hverdict, hname⟩ := verdict_normalizeOne d i j taken
      rw [normalizeFrom, normalizeFrom, List.map_cons, List.map_cons, hverdict, hname,
        ih (i + 1) (j + 1)]

theorem verdicts_without {before after : List Definition} {d : Definition}
    (h : ∀ u, (normalize (before ++ d :: after))[before.length]? ≠ some (.ready u)) :
    ((normalize (before ++ d :: after)).eraseIdx before.length).map verdict =
      (normalize (before ++ after)).map verdict := by
  have hlength : (normalizeFrom 0 [] before).length = before.length :=
    length_normalizeFrom before 0 []
  have hsplit := normalizeFrom_append before (d :: after) 0 []
  rw [normalizeFrom] at hsplit
  rw [normalize, hsplit, List.getElem?_append_right (Nat.le_of_eq hlength), hlength, Nat.sub_self,
    List.getElem?_cons_zero] at h
  rcases normalizeOne_cases d (0 + before.length) ((readyNames (normalizeFrom 0 [] before)).reverse ++ [])
    with ⟨dialect, hready⟩ | ⟨reason, hrejected, -⟩
  · rw [hready] at h
    exact absurd rfl (h _)
  · -- The rest gets the same names either way, and only other indices.
    rw [normalize, hsplit, normalize, normalizeFrom_append before after,
      List.eraseIdx_append_of_length_le (Nat.le_of_eq hlength), hlength, Nat.sub_self,
      List.eraseIdx_cons_zero, hrejected, List.map_append, List.map_append]
    exact congrArg _ (verdict_normalizeFrom after _ _ _)

/-- A definition becomes a unit if it is admissible and no unit before it has its name; otherwise it
is turned away with what the first check that it fails says. -/
theorem admitted_unless_claimed (ds : List Definition) :
    (normalize ds).length = ds.length ∧
    (∀ i d, ds[i]? = some d →
      (∀ dialect, (normalize ds)[i]? = some (.ready ⟨i, d.task, d.trimmedName, dialect, d.code⟩) ↔
        d.Admissible dialect ∧ ¬ Claimed (normalize ds) i d.trimmedName) ∧
      ((∃ dialect, (normalize ds)[i]? =
          some (.ready ⟨i, d.task, d.trimmedName, dialect, d.code⟩)) ∨
        ∃ reason, (normalize ds)[i]? = some (.rejected i d.trimmedName reason) ∧
          reason.failure.kind = .invalidDefinition ∧
          d.Objection (Claimed (normalize ds) i d.trimmedName) reason.failure.reason)) ∧
    (readyNames (normalize ds)).Nodup ∧
    ∀ before d after, ds = before ++ d :: after →
      (∀ u, (normalize ds)[before.length]? ≠ some (.ready u)) →
      ((normalize ds).eraseIdx before.length).map verdict =
        (normalize (before ++ after)).map verdict := by
  refine ⟨length_normalizeFrom ds 0 [], fun i d hd => ?_, (readyNames_normalizeFrom ds 0 []).1, ?_⟩
  · have helement := getElem?_normalize hd
    have hclaimed := mem_readyNames_take (normalize ds) i d.trimmedName
    refine ⟨fun dialect => ?_, ?_⟩
    · rw [helement, Option.some.injEq, normalizeOne_ready_iff, hclaimed]
    · rw [helement, ← hclaimed]
      rcases normalizeOne_cases d i (readyNames ((normalize ds).take i)) with
        ⟨dialect, hready⟩ | ⟨reason, hrejected, hobjection⟩
      · exact .inl ⟨dialect, congrArg some hready⟩
      · exact .inr ⟨reason, congrArg some hrejected, rfl, hobjection⟩
  · rintro before d after rfl h
    exact verdicts_without h

def namesakes : List Definition :=
  [⟨"a", " \n", "p.A", "java"⟩, ⟨"b", "x", " p.A ", " Java"⟩, ⟨"c", "y", "p.A", "flinkSQL"⟩]

theorem admitted_unless_claimed_namesakes :
    namesakes[1]? = some ⟨"b", "x", " p.A ", " Java"⟩ ∧
    Admissible ⟨"b", "x", " p.A ", " Java"⟩ .java ∧ ¬ Claimed (normalize namesakes) 1 "p.A" ∧
    (∀ u, (normalize namesakes)[0]? ≠ some (.ready u)) ∧
    ((normalize namesakes).eraseIdx 0).map verdict =
      [("p.A", some .java, none), ("p.A", none, some (.duplicate "p.A"))] := by
  have hnormal : normalize namesakes = [.rejected 0 "p.A" (.emptySource "p.A"),
      .ready ⟨1, "b", "p.A", .java, "x"⟩, .rejected 2 "p.A" (.duplicate "p.A")] := by
    decide +kernel
  have hfirst : ∀ u, (normalize namesakes)[0]? ≠ some (.ready u) := by simp [hnormal]
  obtain ⟨-, hplaces, -, hwithout⟩ := admitted_unless_claimed namesakes
  have hready := ((hplaces 1 _ rfl).1 .java).mp (by rw [hnormal]; decide +kernel)
  refine ⟨rfl, hready.1, ?_, hfirst, (hwithout [] _ _ rfl hfirst).trans (by decide +kernel)⟩
  have hname : Definition.trimmedName ⟨"b", "x", " p.A ", " Java"⟩ = "p.A" := by decide +kernel
  exact hname ▸ hready.2

end Definition

end FunctionJar
