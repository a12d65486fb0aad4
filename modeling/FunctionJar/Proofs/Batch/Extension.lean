import FunctionJar.Proofs.Archive.Order
import FunctionJar.Proofs.Batch.Conservation
import FunctionJar.Proofs.Execution.Isolation

namespace FunctionJar

open Execution

namespace Execution

/-- What the units of a batch may come to, in whatever order they go on, if each takes exactly the
time that it needs. -/
def EndsInTime (cfg : Settings) (r : Registry) (d : Disk) (units : List SourceUnit) (e : State) :
    Prop :=
  ∃ s, Reaches (PromptTurn cfg r) (.init d units) s ∧ s.Idle ∧ e = s.completed units

variable {cfg : Settings} {r : Registry} {d : Disk} {units : List SourceUnit}
  {finish : SourceUnit → Finish} {time : SourceUnit → Nat}

theorem exists_endsInTime (husable : UsableRoot cfg r d units)
    (hsteady : SteadyUnits cfg r finish time d units) : ∃ e, EndsInTime cfg r d units e := by
  have hends : WellFounded fun t s => PromptTurn cfg r s t := promptTurn_wf
  have hgoes : ∀ s, Reaches (PromptTurn cfg r) (.init d units) s →
      ∃ t, Reaches (PromptTurn cfg r) (.init d units) t ∧ t.Idle := by
    intro s
    induction s using hends.induction with
    | _ s ih =>
        intro hreach
        rcases husable.goes_on hsteady hreach with hidle | ⟨t, hturn⟩
        · exact ⟨s, hreach, hidle⟩
        · exact ih t hturn (.next hreach hturn)
  obtain ⟨s, hreach, hidle⟩ := hgoes _ .refl
  exact ⟨s.completed units, s, hreach, hidle, rfl⟩

theorem EndsInTime.told_perm {e : State} (h : EndsInTime cfg r d units e)
    (husable : UsableRoot cfg r d units) (hsteady : SteadyUnits cfg r finish time d units) :
    (e.results.map (·.told)).Perm (units.map fun u => (u.index, verdict cfg finish time u)) := by
  obtain ⟨s, hreach, hidle, rfl⟩ := h
  have hresults := results_perm hreach hidle husable hsteady
  rw [State.completed, missing_eq_nil hresults, List.append_nil]
  exact hresults

end Execution

def Normalized.settled (f : SourceUnit → Outcome) : Normalized → UnitResult
  | .ready u => ⟨u.index, f u, 0⟩
  | .rejected index className reason => ⟨index, .failed ⟨className, reason.failure⟩, 0⟩

theorem Definition.index_settled (f : SourceUnit → Outcome) (ds : List Definition) :
    ((normalize ds).map (·.settled f)).map (·.index) = List.range ds.length := by
  rw [List.map_map, ← map_index_normalize]
  refine List.map_congr_left fun n _ => ?_
  cases n <;> rfl

/-- Every list of an aggregate begins that of another one. -/
structure Aggregate.Begins (a b : Aggregate) : Prop where
  success : a.report.success <+: b.report.success
  failed : a.report.failed <+: b.report.failed
  failures : a.failures <+: b.failures
  units : a.units <+: b.units

namespace Batch

def units (ds : List Definition) : List SourceUnit :=
  (Definition.normalize ds).filterMap Normalized.unit?

def outcomes (ds : List Definition) (executed : List UnitResult) : List (Nat × Outcome) :=
  (Archive.rejectConflicts (results (Definition.normalize ds) executed)).map (·.told)

theorem tally_eq_outcomes (ds : List Definition) (executed : List UnitResult) :
    tally (Definition.normalize ds) executed =
      let us := (outcomes ds executed).filterMap (·.2.unit?)
      let fs := (outcomes ds executed).filterMap (·.2.failure?)
      ⟨⟨us.map (·.className), fs.map (·.className)⟩, fs, us⟩ := by
  rw [tally_eq]
  simp only [outcomes, List.filterMap_map]
  rfl

theorem begins_of_outcomes {ds es : List Definition} {xs ys : List UnitResult}
    (h : outcomes ds xs <+: outcomes es ys) :
    (tally (Definition.normalize ds) xs).Begins (tally (Definition.normalize es) ys) := by
  have hunits := h.filterMap (·.2.unit?)
  have hfailures := h.filterMap (·.2.failure?)
  rw [tally_eq_outcomes, tally_eq_outcomes]
  exact ⟨hunits.map _, hfailures.map _, hfailures, hunits⟩

theorem told_sort_results {f : SourceUnit → Outcome} (ds : List Definition)
    {executed : List UnitResult}
    (h : (executed.map (·.told)).Perm ((units ds).map fun u => (u.index, f u))) :
    (UnitResult.sort (results (Definition.normalize ds) executed)).map (·.told) =
      ((Definition.normalize ds).map (·.settled f)).map (·.told) := by
  rw [List.map_map]
  refine UnitResult.map_sort_eq Prod.fst (fun _ => rfl)
    (map_results_perm (fun _ => rfl) (fun _ _ _ => rfl) _ h) ?_
  have hrange := Definition.index_settled f ds ▸ List.pairwise_lt_range (n := ds.length)
  rw [List.map_map, List.pairwise_map] at hrange
  rw [List.pairwise_map]
  exact hrange

theorem outcomes_eq {f : SourceUnit → Outcome} (ds : List Definition) {executed : List UnitResult}
    (h : (executed.map (·.told)).Perm ((units ds).map fun u => (u.index, f u))) :
    outcomes ds executed = (Archive.rejectFrom Sha256.digest []
      ((Definition.normalize ds).map (·.settled f))).map (·.told) :=
  Archive.told_rejectFrom (told_sort_results ds h)

theorem index_outcomes {f : SourceUnit → Outcome} {ds : List Definition}
    {executed : List UnitResult}
    (h : (executed.map (·.told)).Perm ((units ds).map fun u => (u.index, f u))) :
    (outcomes ds executed).map (·.1) = List.range ds.length := by
  rw [outcomes_eq ds h, List.map_map, ← Definition.index_settled f]
  exact Archive.map_index_rejectFrom [] _

theorem outcomes_append {f : SourceUnit → Outcome} {ds more : List Definition}
    {xs ys : List UnitResult}
    (hxs : (xs.map (·.told)).Perm ((units ds).map fun u => (u.index, f u)))
    (hys : (ys.map (·.told)).Perm ((units (ds ++ more)).map fun u => (u.index, f u))) :
    outcomes ds xs <+: outcomes (ds ++ more) ys := by
  obtain ⟨ns, hns⟩ := Definition.normalize_append ds more
  obtain ⟨claims, hreject⟩ := Archive.rejectFrom_append Sha256.digest []
    ((Definition.normalize ds).map (·.settled f))
  rw [outcomes_eq ds hxs, outcomes_eq _ hys, hns, List.map_append, hreject, List.map_append]
  exact List.prefix_append _ _

theorem endsInTime_of_build {cfg : Config} {r : Registry} {s : Session} {d : Disk}
    {ds : List Definition} {o : BuildOutput} (h : (build cfg r s d ds).outcome = .ok o) :
    ∃ e, EndsInTime cfg.execution r d (units ds) e ∧
      o.report = (tally (Definition.normalize ds) e.results).report ∧
      o.failures = (tally (Definition.normalize ds) e.results).failures := by
  obtain ⟨-, hrun, hfinish⟩ := build_ok h
  obtain ⟨hreport, hfailures, -⟩ := finish_ok hfinish
  exact ⟨_, run_cases hrun, hreport, hfailures⟩

/-- What is submitted later changes nothing of what becomes of earlier definitions. -/
theorem later_definitions_change_nothing {cfg : Config} {r : Registry}
    {finish : SourceUnit → Finish} {time : SourceUnit → Nat} {d d' : Disk}
    {ds more : List Definition} (husable : UsableRoot cfg.execution r d (units ds))
    (hsteady : SteadyUnits cfg.execution r finish time d (units ds))
    (husable' : UsableRoot cfg.execution r d' (units (ds ++ more)))
    (hsteady' : SteadyUnits cfg.execution r finish time d' (units (ds ++ more))) :
    (∃ e, EndsInTime cfg.execution r d (units ds) e) ∧
    (∃ e', EndsInTime cfg.execution r d' (units (ds ++ more)) e') ∧
    (∀ e e', EndsInTime cfg.execution r d (units ds) e →
      EndsInTime cfg.execution r d' (units (ds ++ more)) e' →
        (outcomes ds e.results).map (·.1) = List.range ds.length ∧
        outcomes ds e.results <+: outcomes (ds ++ more) e'.results ∧
        (tally (Definition.normalize ds) e.results).Begins
          (tally (Definition.normalize (ds ++ more)) e'.results)) ∧
    ∀ s s' o o', (build cfg r s d ds).outcome = .ok o →
      (build cfg r s' d' (ds ++ more)).outcome = .ok o' →
        o.report.success <+: o'.report.success ∧ o.report.failed <+: o'.report.failed ∧
          o.failures <+: o'.failures := by
  have hfront : ∀ e e', EndsInTime cfg.execution r d (units ds) e →
      EndsInTime cfg.execution r d' (units (ds ++ more)) e' →
        outcomes ds e.results <+: outcomes (ds ++ more) e'.results := fun e e' he he' =>
    outcomes_append (he.told_perm husable hsteady) (he'.told_perm husable' hsteady')
  refine ⟨exists_endsInTime husable hsteady, exists_endsInTime husable' hsteady',
    fun e e' he he' => ?_, fun s s' o o' ho ho' => ?_⟩
  · exact ⟨index_outcomes (he.told_perm husable hsteady), hfront e e' he he',
      begins_of_outcomes (hfront e e' he he')⟩
  · obtain ⟨e, he, hreport, hfailures⟩ := endsInTime_of_build ho
    obtain ⟨e', he', hreport', hfailures'⟩ := endsInTime_of_build ho'
    have hbegins := begins_of_outcomes (hfront e e' he he')
    rw [hreport, hfailures, hreport', hfailures']
    exact ⟨hbegins.success, hbegins.failed, hbegins.failures⟩

def echoing : Registry := ⟨fun _ => some fun u _ _ =>
  ⟨[.sleep u.code.length], .compiled ⟨u.className, u.dialect, [⟨"p/H", Text.utf8 u.code⟩]⟩⟩⟩

def echoFinish (u : SourceUnit) : Finish :=
  .compiled ⟨u.className, u.dialect, [⟨"p/H", Text.utf8 u.code⟩]⟩

def early : List Definition := [.named "p.A" "java" "one", .named "p.A" "java" "two"]

def late : List Definition :=
  [.named "p.B" "scala" "other", .named "p.A" "java" "three", .named "p.C" "sql" "one"]

def echoConfig : Config :=
  ⟨"/udf.jar", "/ws", 2, 1000, none, .named "javac", .named "scalac", none⟩

def echoDisk : Disk := ⟨.folder [("ws", .empty), ("udf.jar", .file [1] false)], []⟩

theorem ground_echoDisk : Workspace.Ground "/ws" ["ws"] [] echoDisk :=
  ⟨⟨by decide +kernel, by decide +kernel, by decide +kernel, by decide +kernel,
    by decide +kernel, by decide +kernel⟩, rfl⟩

theorem later_definitions_change_nothing_clashing : ∃ e e',
    EndsInTime echoConfig.execution echoing echoDisk (units early) e ∧
      EndsInTime echoConfig.execution echoing echoDisk (units (early ++ late)) e' ∧
      outcomes early e.results <+: outcomes (early ++ late) e'.results ∧
      (tally (Definition.normalize early) e.results).report = ⟨["p.A"], ["p.A"]⟩ ∧
      (tally (Definition.normalize (early ++ late)) e'.results).report =
        ⟨["p.A", "p.C"], ["p.A", "p.B", "p.A"]⟩ := by
  have hsteady : ∀ ds, SteadyUnits echoConfig.execution echoing echoFinish (·.code.length) echoDisk
      (units ds) := by
    intro ds s _ u _ path d _
    exact ⟨rfl, fun _ => rfl⟩
  have husable : ∀ ds, (∀ u ∈ units ds, ∀ n ≤ 0 + 2 * (units ds).length,
      Workspace.Fits "/ws" (Workspace.stem u.index u.className ++ unique n)) →
        UsableRoot echoConfig.execution echoing echoDisk (units ds) := by
    intro ds hnames
    refine usableRoot_of_confined ground_echoDisk hnames fun s hreach => confined_of_quiet ?_ hreach
    intro u path d e
    simp [Registry.dispatch, echoing, Registry.checked]
  have hshort := husable early (by decide +kernel)
  have hlong := husable (early ++ late) (by decide +kernel)
  obtain ⟨⟨e, he⟩, ⟨e', he'⟩, hall, -⟩ :=
    later_definitions_change_nothing hshort (hsteady early) hlong (hsteady (early ++ late))
  have hreport := outcomes_eq early (he.told_perm hshort (hsteady early))
  have hreport' := outcomes_eq (early ++ late) (he'.told_perm hlong (hsteady (early ++ late)))
  refine ⟨e, e', he, he', (hall e e' he he').2.1, ?_, ?_⟩
  · rw [tally_eq_outcomes, hreport]
    decide +kernel
  · rw [tally_eq_outcomes, hreport']
    decide +kernel

end Batch

end FunctionJar
