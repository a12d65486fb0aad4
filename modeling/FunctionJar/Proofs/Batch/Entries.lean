import FunctionJar.Proofs.Admission
import FunctionJar.Proofs.Batch.Extension
import FunctionJar.Proofs.Confinement
import FunctionJar.Proofs.Except
import FunctionJar.Proofs.Strategy
import Mathlib.Data.List.Nodup

namespace FunctionJar

def UnitResult.entries (x : UnitResult) : List Entry := (x.outcome.unit?.map (·.entries)).getD []

namespace Archive

open Text (Bytes)

variable {δ : Type} [DecidableEq δ] {digest : Bytes → δ}

theorem rejectFrom_eq_self {claims : List (Claim δ)} {before : List Entry} {rs : List UnitResult}
    (h : Held digest claims before)
    (hreserved : ∀ x ∈ rs, ∀ e ∈ x.entries, isReserved e.path = false)
    (hbefore : ∀ x ∈ rs, ∀ e ∈ x.entries, ∀ f ∈ before, f.path ≠ e.path)
    (hapart : rs.Pairwise fun x y => ∀ e ∈ x.entries, ∀ f ∈ y.entries, e.path ≠ f.path) :
    rejectFrom digest claims rs = rs := by
  induction rs generalizing claims before with
  | nil => rfl
  | cons x rest ih =>
      obtain ⟨hx, hrest⟩ := List.pairwise_cons.mp hapart
      have hnext {claims' : List (Claim δ)} {before' : List Entry}
          (h' : Held digest claims' before') (hb : ∀ f ∈ before', f ∈ before ∨ f ∈ x.entries) :
          rejectFrom digest claims' rest = rest := by
        refine ih h' (fun y hy => hreserved y (by simp [hy])) (fun y hy e he f hf => ?_) hrest
        rcases hb f hf with hf | hf
        · exact hbefore y (by simp [hy]) e he f hf
        · exact hx y hy f hf e he
      rw [rejectFrom]
      split
      · next f hf => rw [hnext h fun f hf => .inl hf]
      · next u hu =>
          have hentries : x.entries = u.entries := by simp [UnitResult.entries, hu, Outcome.unit?]
          have hnone : u.entries.findSome? (clashOf? digest claims) = none := by
            refine List.findSome?_eq_none_iff.mpr fun e he => (clashOf?_eq_none h e).mpr ?_
            rw [← hentries] at he
            refine ⟨hreserved x (by simp) e he, fun f hf => ?_⟩
            exact absurd (path_of_entryAt? hf) (hbefore x (by simp) e he f (mem_of_entryAt? hf))
          simp only [hnone]
          rw [hnext h.claim fun f hf => by rw [hentries]; exact List.mem_append.mp hf]

theorem rejectConflictsBy_eq_sort {rs : List UnitResult}
    (hreserved : ∀ x ∈ rs, ∀ e ∈ x.entries, isReserved e.path = false)
    (hapart : rs.Pairwise fun x y => ∀ e ∈ x.entries, ∀ f ∈ y.entries, e.path ≠ f.path) :
    rejectConflictsBy digest rs = UnitResult.sort rs := by
  have hperm := UnitResult.sort_perm rs
  refine rejectFrom_eq_self .nil (fun x hx => hreserved x (hperm.subset hx)) (by simp) ?_
  refine (hperm.pairwise_iff fun {x y} h e he f hf => ?_).mpr hapart
  exact (h f hf e he).symm

end Archive

/-- All the entries that a strategy gives to a unit lie where the class of the unit belongs. -/
def Registry.KeepsTo (r : Registry) (u : SourceUnit) : Prop :=
  ∀ path d c, (r.dispatch u path d).finish = .compiled c →
    ∀ e ∈ c.entries, e.path = u.dialect.primaryPath u.className

namespace Batch

variable {ds : List Definition} {u v : SourceUnit}

theorem valid_of_mem_units (h : u ∈ units ds) : ClassName.Valid u.className := by
  obtain ⟨n, hn, hunit⟩ := List.mem_filterMap.mp h
  obtain ⟨i, hi⟩ := List.mem_iff_getElem?.mp hn
  have hlength : i < ds.length := by
    have := (List.getElem?_eq_some_iff.mp hi).1
    rwa [Definition.normalize, Definition.length_normalizeFrom] at this
  have hmade := Definition.getElem?_normalize (List.getElem?_eq_getElem hlength)
  rw [hi] at hmade
  rcases Definition.normalizeOne_cases ds[i] i
      (Normalized.readyNames ((Definition.normalize ds).take i))
    with ⟨dialect, hready⟩ | ⟨reason, hrejected, -⟩
  · rw [Option.some.inj hmade, hready] at hunit
    obtain rfl := Option.some.inj hunit
    exact (Definition.normalizeOne_ready_iff.mp hready).1.name
  · rw [Option.some.inj hmade, hrejected] at hunit
    cases hunit

theorem className_inj (hu : u ∈ units ds) (hv : v ∈ units ds) (he : u.className = v.className) :
    u = v :=
  List.inj_on_of_nodup_map (Definition.readyNames_normalizeFrom ds 0 []).1 hu hv he

theorem primaryPath_ne (hu : u ∈ units ds) (hv : v ∈ units ds) (hne : u ≠ v) (a b : Dialect) :
    a.primaryPath u.className ≠ b.primaryPath v.className := fun he =>
  hne (className_inj hu hv
    (Dialect.primaryPath_inj (valid_of_mem_units hu) (valid_of_mem_units hv) he))

theorem path_of_yields {r : Registry} {x : UnitResult} (hkeeps : r.KeepsTo u)
    (h : Execution.Yields r u x.outcome) {e : Entry} (he : e ∈ x.entries) :
    e.path = u.dialect.primaryPath u.className := by
  rw [UnitResult.entries] at he
  generalize x.outcome = o at h he
  cases h with
  | @compiled c path d hfinish => exact hkeeps path d c hfinish e he
  | failed f => simp [Outcome.unit?] at he

theorem entries_of_result? {ns : List Normalized} {x : UnitResult}
    (h : x ∈ ns.filterMap Normalized.result?) : x.entries = [] := by
  obtain ⟨n, -, hn⟩ := List.mem_filterMap.mp h
  cases n with
  | ready u => cases hn
  | rejected index name reason =>
      obtain rfl := Option.some.inj hn
      rfl

theorem apart_executed {settings : Execution.Settings} {r : Registry} {d : Disk}
    {e : Execution.State} (hkeeps : ∀ u ∈ units ds, r.KeepsTo u)
    (h : Execution.Ends settings r d (units ds) e) :
    e.results.Pairwise fun x y => ∀ a ∈ x.entries, ∀ b ∈ y.entries, a.path ≠ b.path := by
  have hindices : e.results.Pairwise fun x y => x.index ≠ y.index := by
    have hnodup := (h.indices_perm (Definition.index_nodup_units ds)).nodup_iff.mpr
      (Definition.index_nodup_units ds)
    exact List.pairwise_map.mp hnodup
  refine hindices.imp_of_mem fun {x y} hx hy hne a ha b hb => ?_
  obtain ⟨u, hu, hxu, hxy⟩ := h.yields x hx
  obtain ⟨v, hv, hyv, hyy⟩ := h.yields y hy
  rw [path_of_yields (hkeeps u hu) hxy ha, path_of_yields (hkeeps v hv) hyy hb]
  refine primaryPath_ne hu hv ?_ _ _
  rintro rfl
  exact hne (hxu.trans hyv.symm)

theorem rejectConflicts_results {settings : Execution.Settings} {r : Registry} {d : Disk}
    {e : Execution.State} (hkeeps : ∀ u ∈ units ds, r.KeepsTo u)
    (h : Execution.Ends settings r d (units ds) e) :
    Archive.rejectConflicts (results (Definition.normalize ds) e.results) =
      UnitResult.sort (results (Definition.normalize ds) e.results) := by
  refine Archive.rejectConflictsBy_eq_sort (fun x hx a ha => ?_) ?_
  · rcases List.mem_append.mp hx with hx | hx
    · simp [entries_of_result? hx] at ha
    · obtain ⟨u, hu, -, hyields⟩ := h.yields x hx
      rw [path_of_yields (hkeeps u hu) hyields ha]
      exact u.dialect.not_isReserved_primaryPath u.className
  · rw [results, List.pairwise_append]
    refine ⟨?_, apart_executed hkeeps h, fun x hx y _ a ha => ?_⟩
    · refine List.pairwise_of_forall_mem_list fun x hx y _ a ha => ?_
      simp [entries_of_result? hx] at ha
    · simp [entries_of_result? hx] at ha

/-- A path goes down by plain names, and a file that is written there in a workspace without links
lies there; along the way nothing changes outside. -/
def Confined (path : String) : Prop :=
  ∃ names, Descends path names ∧ ∀ (d : Disk) w place content, d.Holds w place →
    (∀ k, Disk.Within place d (Workspace.written d w path content k)) ∧
      ∀ d', Workspace.writeFile d w path content = .ok d' →
        ∃ runs, d'.root.get? (place ++ names) = some (.file content runs)

theorem confined_of_descends {path : String} (h : ∃ names, Descends path names) :
    Confined path := by
  obtain ⟨names, hpath⟩ := h
  exact ⟨names, hpath, fun d w place content hw => ⟨Workspace.within_written hw hpath content,
    fun d' hwrite => Workspace.get?_of_writeFile hw hpath hwrite⟩⟩

/-- What is made of the name of a unit: paths of its class and of its source, and a workspace with a
new name, that has nothing in it at first. -/
structure Safe (u : SourceUnit) : Prop where
  primary : ∀ d : Dialect, Confined (d.primaryPath u.className)
  source : ∀ l : Jvm.Language, Confined (Jvm.sourcePath u.className l.extension)
  prefix' : ∃ name, Descends (Workspace.stem u.index u.className) [name]
  workspace : ∀ d root held w d',
    Workspace.allocate d root held u.index u.className = .ok (w, d') → ∃ place, d'.Holds w place

theorem safe_of_mem_units (h : u ∈ units ds) : Safe u where
  primary d := confined_of_descends (d.descends_primaryPath (valid_of_mem_units h))
  source l := confined_of_descends
    (Jvm.descends_sourcePath (valid_of_mem_units h) (by cases l <;> decide))
  prefix' := by
    have hending : '/' ∉ "".toList := by decide
    have hstem := Workspace.itemName_stem u.index (valid_of_mem_units h) hending
    rw [String.append_empty] at hstem
    exact ⟨_, .single hstem⟩
  workspace _ _ _ _ _ := Workspace.holds_allocate (valid_of_mem_units h)

/-- Names make the paths at which classes go into the archive; these are safe to write to and are
different for different units, whatever their dialects, so a batch whose units keep to them loses
none to a clash. -/
theorem names_make_safe_distinct_paths (ds : List Definition) :
    (∀ run java scala python, ∀ u ∈ units ds, ∀ w d c,
      ((Registry.builtin run java scala python).dispatch u w d).finish = .compiled c →
        ∃ e ∈ c.entries, e.path = u.dialect.primaryPath u.className) ∧
    (∀ u ∈ units ds, ∀ v ∈ units ds, u ≠ v → ∀ a b : Dialect,
      a.primaryPath u.className ≠ b.primaryPath v.className) ∧
    (∀ u ∈ units ds, ∀ a : Dialect, a.primaryPath u.className ≠ Archive.manifestPath ∧
      a.primaryPath u.className ≠ Archive.indexPath) ∧
    (∀ u ∈ units ds, Safe u) ∧
    ∀ settings r d e, (∀ u ∈ units ds, r.KeepsTo u) →
      Execution.Ends settings r d (units ds) e →
        Archive.rejectConflicts (results (Definition.normalize ds) e.results) =
          UnitResult.sort (results (Definition.normalize ds) e.results) :=
  ⟨fun _ _ _ _ _ _ _ _ _ => Registry.entry_of_builtin,
    fun _ hu _ hv hne a b => primaryPath_ne hu hv hne a b,
    fun u _ a => by simpa [Archive.isReserved] using a.not_isReserved_primaryPath u.className,
    fun _ hu => safe_of_mem_units hu, fun _ _ _ _ hkeeps h => rejectConflicts_results hkeeps h⟩

def beside : List Definition :=
  [.named "udf.py.A" "java" "udf/py/A.class", .named "A" "python" "udf/py/A.py"]

def besideUnits : List SourceUnit :=
  [⟨0, "udf.py.A", "udf.py.A", .java, "udf/py/A.class"⟩, ⟨1, "A", "A", .python, "udf/py/A.py"⟩]

def besideRegistry : Registry :=
  let strategy := Scripted.strategy (fun code => [.emit code [1]]) none
  (Registry.empty.register .java strategy).register .python strategy

def besideSettings : Execution.Settings := ⟨"work", 2, 1000, none⟩

def besideResults : List UnitResult :=
  [⟨0, .compiled ⟨"udf.py.A", .java, [⟨"udf/py/A.class", [1]⟩]⟩, 0⟩,
    ⟨1, .compiled ⟨"A", .python, [⟨"udf/py/A.py", [1]⟩]⟩, 0⟩]

theorem units_beside : units beside = besideUnits := by decide +kernel

theorem keepsTo_beside : ∀ u ∈ units beside, besideRegistry.KeepsTo u := by
  rw [units_beside]
  intro u hu path d c hcompiled e he
  simp only [besideUnits, List.mem_cons, List.not_mem_nil, or_false] at hu
  rcases hu with rfl | rfl
  all_goals
    cases hcompiled
    obtain rfl := List.mem_singleton.mp he
    decide +kernel

theorem ends_beside : ∃ e, Execution.Ends besideSettings besideRegistry ⟨.empty, []⟩
    (units beside) e ∧ e.results = besideResults := by
  rw [units_beside]
  have hall : besideUnits.filter (fun u => !besideResults.any (·.index == u.index)) = [] := by
    decide +kernel
  have hrun : (Execution.runFor besideSettings besideRegistry none 10
      (.init ⟨.empty, []⟩ besideUnits)).any fun e =>
        e.fault = none ∧ e.state.results = besideResults ∧ true := by
    decide +kernel
  obtain ⟨e, hrun, hresults, -⟩ :=
    Execution.run_of_runFor (P := fun _ => true) (by decide +kernel) hall hrun
  have hends := Execution.ends_run (congrArg Execution.Ended.fault hrun)
  rw [hrun] at hends
  exact ⟨e, hends, hresults⟩

theorem written_beside : ∃ w d d',
    Workspace.allocate ⟨.empty, []⟩ "work" [] 0 "udf.py.A" = .ok (w, d) ∧
      Workspace.writeFile d w (Dialect.java.primaryPath "udf.py.A") [1] = .ok d' := by
  have hcheck : ((Workspace.allocate ⟨.empty, []⟩ "work" [] 0 "udf.py.A").toOption.bind fun x =>
      (Workspace.writeFile x.2 x.1 (Dialect.java.primaryPath "udf.py.A") [1]).toOption).isSome := by
    decide +kernel
  obtain ⟨d', hd'⟩ := Option.isSome_iff_exists.mp hcheck
  obtain ⟨⟨w, d⟩, hallocate, hwrite⟩ := Option.bind_eq_some_iff.mp hd'
  exact ⟨w, d, d', ok_of_toOption hallocate, ok_of_toOption hwrite⟩

theorem names_make_safe_distinct_paths_beside :
    Dialect.java.primaryPath "udf.py.A" ≠ Dialect.python.primaryPath "A" ∧
    (∃ w d d' place names runs,
      Workspace.allocate ⟨.empty, []⟩ "work" [] 0 "udf.py.A" = .ok (w, d) ∧ d.Holds w place ∧
        Workspace.writeFile d w (Dialect.java.primaryPath "udf.py.A") [1] = .ok d' ∧
          d'.root.get? (place ++ names) = some (.file [1] runs)) ∧
    ∃ e, Execution.Ends besideSettings besideRegistry ⟨.empty, []⟩ (units beside) e ∧
      Archive.rejectConflicts (results (Definition.normalize beside) e.results) =
        UnitResult.sort (results (Definition.normalize beside) e.results) := by
  obtain ⟨-, hdistinct, -, hsafe, hnone⟩ := names_make_safe_distinct_paths beside
  have hfirst : ⟨0, "udf.py.A", "udf.py.A", .java, "udf/py/A.class"⟩ ∈ units beside := by
    decide +kernel
  have hsecond : ⟨1, "A", "A", .python, "udf/py/A.py"⟩ ∈ units beside := by decide +kernel
  obtain ⟨w, d, d', hallocate, hwrite⟩ := written_beside
  obtain ⟨place, hholds⟩ := (hsafe _ hfirst).workspace _ _ _ _ _ hallocate
  obtain ⟨names, -, hconfined⟩ := (hsafe _ hfirst).primary .java
  obtain ⟨runs, hget⟩ := (hconfined d w place [1] hholds).2 d' hwrite
  obtain ⟨e, hends, -⟩ := ends_beside
  exact ⟨hdistinct _ hfirst _ hsecond (by decide) .java .python,
    ⟨w, d, d', place, names, runs, hallocate, hholds, hwrite, hget⟩,
    e, hends, hnone _ _ _ _ keepsTo_beside hends⟩

end Batch

end FunctionJar
