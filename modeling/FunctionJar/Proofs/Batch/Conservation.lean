import FunctionJar.Batch
import FunctionJar.Proofs.Archive.Rejection
import FunctionJar.Proofs.Execution.Accounting
import FunctionJar.Proofs.Normalization
import FunctionJar.Strategy.Scripted
import Mathlib.Data.List.Forall2

namespace FunctionJar

/-- What can become of a definition: it is rejected at once, or its unit has an outcome, which a
clash may still turn into a failure. -/
inductive Fate (r : Registry) : Normalized → Outcome → Prop
  | rejected (index : Nat) (className : String) (reason : Rejection) :
      Fate r (.rejected index className reason) (.failed ⟨className, reason.failure⟩)
  | executed {u : SourceUnit} {o o' : Outcome} (h : Execution.Yields r u o)
      (hjudged : Archive.Judged o o') : Fate r (.ready u) o'

/-- A batch gives `o` for some order in which its units may go on. -/
def Batch.Completes (cfg : Config) (r : Registry) (s : Session) (d : Disk) (ds : List Definition)
    (o : BuildOutput) : Prop :=
  cfg.validate = .ok () ∧ ∃ e,
    Execution.Ends cfg.execution r d ((Definition.normalize ds).filterMap Normalized.unit?) e ∧
      (Batch.finish cfg s (Definition.normalize ds) e).outcome = .ok o

/-- One fate for each definition, in submission order, is what the output is made of. -/
structure BuildOutput.Accounts (r : Registry) (ds : List Definition) (o : BuildOutput)
    (final : List Outcome) : Prop where
  fates : List.Forall₂ (Fate r) (Definition.normalize ds) final
  success : o.report.success = (final.filter fun f => f.isCompiled).map (·.className)
  failed : o.report.failed = (final.filter fun f => !f.isCompiled).map (·.className)
  failures : o.failures = final.filterMap (·.failure?)
  names : o.failures.map (·.className) = o.report.failed
  total : o.report.success.length + o.report.failed.length = ds.length
  archive : o.archive.isSome ↔ o.report.success ≠ []
  classes : ∀ a, o.archive = some a → a.classes = o.report.success

namespace Batch

variable {cfg : Config} {r : Registry} {s : Session} {d : Disk} {ds : List Definition}
  {o : BuildOutput}

theorem build_ok (h : (build cfg r s d ds).outcome = .ok o) :
    cfg.validate = .ok () ∧
      (Execution.run cfg.execution r s.cancelAt d
        ((Definition.normalize ds).filterMap Normalized.unit?)).fault = none ∧
      (finish cfg s (Definition.normalize ds) (Execution.run cfg.execution r s.cancelAt d
        ((Definition.normalize ds).filterMap Normalized.unit?)).state).outcome = .ok o := by
  unfold build at h
  split at h
  · simp at h
  · next hvalid =>
      simp only at h
      split at h
      · simp at h
      · next hrun => exact ⟨hvalid, hrun, h⟩

theorem completes_of_build (h : (build cfg r s d ds).outcome = .ok o) :
    Completes cfg r s d ds o := by
  obtain ⟨hvalid, hrun, hfinish⟩ := build_ok h
  exact ⟨hvalid, _, Execution.ends_run hrun, hfinish⟩

theorem tally_eq (ns : List Normalized) (executed : List UnitResult) :
    tally ns executed =
      let rs := Archive.rejectConflicts (results ns executed)
      ⟨⟨(rs.filterMap (·.outcome.unit?)).map (·.className),
          (rs.filterMap (·.outcome.failure?)).map (·.className)⟩,
        rs.filterMap (·.outcome.failure?), rs.filterMap (·.outcome.unit?)⟩ :=
  aggregate_of_sorted (Archive.sorted_rejectConflicts _)

theorem map_results_perm {γ : Type} {f : SourceUnit → γ} {g : UnitResult → γ}
    {k : Normalized → γ} (hready : ∀ u, k (.ready u) = f u)
    (hrejected : ∀ index className reason, k (.rejected index className reason) =
      g ⟨index, .failed ⟨className, reason.failure⟩, 0⟩)
    (ns : List Normalized) {executed : List UnitResult}
    (h : (executed.map g).Perm ((ns.filterMap Normalized.unit?).map f)) :
    ((results ns executed).map g).Perm (ns.map k) := by
  rw [results, List.map_append]
  refine (h.append_left _).trans ?_
  clear h
  induction ns with
  | nil => simp
  | cons n rest ih =>
      cases n with
      | ready u =>
          simp only [List.filterMap_cons, Normalized.result?, Normalized.unit?, List.map_cons,
            hready]
          exact List.perm_middle.trans (ih.cons _)
      | rejected index className reason =>
          simp only [List.filterMap_cons, Normalized.result?, Normalized.unit?, List.map_cons,
            hrejected, List.cons_append]
          exact ih.cons _

theorem index_results_perm (ns : List Normalized) (executed : List UnitResult)
    (h : (executed.map (·.index)).Perm ((ns.filterMap Normalized.unit?).map (·.index))) :
    ((results ns executed).map (·.index)).Perm (ns.map (·.index)) :=
  map_results_perm (fun _ => rfl) (fun _ _ _ => rfl) ns h

theorem index_rejected {executed : List UnitResult}
    (h : (executed.map (·.index)).Perm
      (((Definition.normalize ds).filterMap Normalized.unit?).map (·.index))) :
    (Archive.rejectConflicts (results (Definition.normalize ds) executed)).map (·.index) =
      (Definition.normalize ds).map (·.index) := by
  have hperm := index_results_perm _ _ h
  have hsort := (UnitResult.sort_perm (results (Definition.normalize ds) executed)).map (·.index)
  have hrange : ((Definition.normalize ds).map (·.index)).Pairwise (· ≤ ·) := by
    rw [Definition.map_index_normalize]
    exact List.pairwise_le_range
  rw [Archive.rejectConflicts, Archive.map_index_rejectConflicts]
  refine List.Perm.eq_of_pairwise (fun _ _ _ _ hle hge => Nat.le_antisymm hle hge) ?_ hrange
    (hsort.trans hperm)
  exact UnitResult.sorted_iff_map.mp (UnitResult.sort_sorted _)

theorem fate_of_mem {ns : List Normalized} {executed : List UnitResult}
    (h : ∀ x ∈ executed, ∃ u ∈ ns.filterMap Normalized.unit?,
      x.index = u.index ∧ Execution.Yields r u x.outcome) {y : UnitResult}
    (hy : y ∈ Archive.rejectConflicts (results ns executed)) :
    ∃ n ∈ ns, n.index = y.index ∧ Fate r n y.outcome := by
  obtain ⟨x, hx, hindex, hjudged⟩ := Archive.mem_rejectConflicts hy
  rcases List.mem_append.mp hx with hx | hx
  · obtain ⟨n, hn, hresult⟩ := List.mem_filterMap.mp hx
    refine ⟨n, hn, ?_⟩
    cases n with
    | ready u => simp [Normalized.result?] at hresult
    | rejected index className reason =>
        obtain rfl := Option.some.inj hresult
        refine ⟨hindex.symm, ?_⟩
        generalize hfinal : y.outcome = final at hjudged
        cases hjudged
        exact .rejected index className reason
  · obtain ⟨u, hu, hunit, hyields⟩ := h x hx
    obtain ⟨n, hn, hready⟩ := List.mem_filterMap.mp hu
    refine ⟨n, hn, ?_⟩
    cases n with
    | ready v =>
        obtain rfl := Option.some.inj hready
        exact ⟨(hindex.trans hunit).symm, .executed hyields hjudged⟩
    | rejected => simp [Normalized.unit?] at hready

end Batch

theorem forall₂_of_keys {α β κ : Type} {f : α → κ} {g : β → κ} {R : α → β → Prop} {xs : List α}
    {ys : List β} (hkeys : xs.map f = ys.map g) (hnodup : (xs.map f).Nodup)
    (h : ∀ y ∈ ys, ∃ x ∈ xs, f x = g y ∧ R x y) : List.Forall₂ R xs ys := by
  induction xs generalizing ys with
  | nil =>
      obtain rfl : ys = [] := by simpa using hkeys.symm
      exact .nil
  | cons x xs ih =>
      cases ys with
      | nil => simp at hkeys
      | cons y ys =>
          simp only [List.map_cons, List.cons.injEq] at hkeys
          simp only [List.map_cons, List.nodup_cons, List.mem_map, not_exists, not_and] at hnodup
          refine .cons ?_ (ih hkeys.2 hnodup.2 fun z hz => ?_)
          · obtain ⟨x', hx', hkey, hR⟩ := h y List.mem_cons_self
            rcases List.mem_cons.mp hx' with rfl | hx'
            · exact hR
            · exact absurd (hkey.trans hkeys.1.symm) (hnodup.1 x' hx')
          · obtain ⟨x', hx', hkey, hR⟩ := h z (List.mem_cons_of_mem _ hz)
            rcases List.mem_cons.mp hx' with rfl | hx'
            · have hmem : g z ∈ xs.map f := hkeys.2 ▸ List.mem_map_of_mem hz
              obtain ⟨x'', hx'', he⟩ := List.mem_map.mp hmem
              exact absurd (he.trans hkey.symm) (hnodup.1 x'' hx'')
            · exact ⟨x', hx', hkey, hR⟩

theorem unit_names (os : List Outcome) : (os.filterMap (·.unit?)).map (·.className) =
    (os.filter fun f => f.isCompiled).map (·.className) := by
  induction os with
  | nil => rfl
  | cons o rest ih =>
      cases o with
      | compiled u => simpa [Outcome.unit?, Outcome.isCompiled, Outcome.className] using ih
      | failed f => simpa [Outcome.unit?, Outcome.isCompiled] using ih

theorem failure_names (os : List Outcome) : (os.filterMap (·.failure?)).map (·.className) =
    (os.filter fun f => !f.isCompiled).map (·.className) := by
  induction os with
  | nil => rfl
  | cons o rest ih =>
      cases o with
      | compiled u => simpa [Outcome.failure?, Outcome.isCompiled] using ih
      | failed f => simpa [Outcome.failure?, Outcome.isCompiled, Outcome.className] using ih

theorem length_parts (os : List Outcome) :
    (os.filter fun f => f.isCompiled).length + (os.filter fun f => !f.isCompiled).length =
      os.length := by
  have h := List.length_eq_countP_add_countP (fun f : Outcome => f.isCompiled) (l := os)
  simpa [List.countP_eq_length_filter] using h.symm

namespace Batch

variable {cfg : Config} {r : Registry} {s : Session} {d : Disk} {ds : List Definition}
  {o : BuildOutput}

theorem classes_of_assemble {refusals : Archive.Refusals} {path : String}
    {us : List CompiledUnit} {archive : Option Archive.Artifact}
    (h : (Archive.assemble refusals d path us).outcome = .ok archive) :
    archive.map (·.classes) = if us = [] then none else some (us.map (·.className)) := by
  unfold Archive.assemble at h
  split at h
  · next hempty =>
      obtain rfl : none = archive := by simpa using h
      simp [List.isEmpty_iff.mp hempty]
  · next hunits =>
      simp only at h
      split at h
      · simp at h
      · obtain rfl := Except.ok.inj h
        rw [if_neg (by simpa using hunits)]
        rfl

theorem finish_ok {ns : List Normalized} {e : Execution.State}
    (h : (finish cfg s ns e).outcome = .ok o) :
    o.report = (tally ns e.results).report ∧ o.failures = (tally ns e.results).failures ∧
      o.archive.map (·.classes) = if (tally ns e.results).units = [] then none
        else some ((tally ns e.results).units.map (·.className)) := by
  unfold finish at h
  simp only at h
  split at h
  · simp at h
  · next archive hassemble =>
      obtain rfl := Except.ok.inj h
      exact ⟨rfl, rfl, classes_of_assemble hassemble⟩

end Batch

theorem BuildOutput.Accounts.of_fates {r : Registry} {ds : List Definition} {o : BuildOutput}
    {final : List Outcome} (hfates : List.Forall₂ (Fate r) (Definition.normalize ds) final)
    (hreport : o.report = ⟨(final.filterMap (·.unit?)).map (·.className),
      (final.filterMap (·.failure?)).map (·.className)⟩)
    (hfailures : o.failures = final.filterMap (·.failure?))
    (harchive : o.archive.map (·.classes) = if final.filterMap (·.unit?) = [] then none
      else some ((final.filterMap (·.unit?)).map (·.className))) :
    o.Accounts r ds final where
  fates := hfates
  success := by rw [hreport, unit_names]
  failed := by rw [hreport, failure_names]
  failures := hfailures
  names := by rw [hreport, hfailures]
  total := by
    rw [hreport, unit_names, failure_names, List.length_map, List.length_map, length_parts,
      ← hfates.length_eq, Definition.normalize, Definition.length_normalizeFrom]
  archive := by
    rw [hreport, ← Option.isSome_map (f := (·.classes)), harchive]
    split <;> simp_all
  classes := by
    intro a ha
    rw [ha, Option.map_some] at harchive
    split at harchive
    · simp at harchive
    · rw [hreport]
      exact Option.some.inj harchive

theorem Batch.Completes.accounts {cfg : Config} {r : Registry} {s : Session} {d : Disk}
    {ds : List Definition} {o : BuildOutput} (h : Batch.Completes cfg r s d ds o) :
    ∃ final, o.Accounts r ds final := by
  obtain ⟨-, e, hends, hfinish⟩ := h
  obtain ⟨hreport, hfailures, harchive⟩ := finish_ok hfinish
  have hindices := index_rejected (hends.indices_perm (Definition.index_nodup_units ds))
  have hnodup : ((Definition.normalize ds).map (·.index)).Nodup := by
    rw [Definition.map_index_normalize]
    exact List.nodup_range
  have hfates : List.Forall₂ (fun n y => Fate r n y.outcome) (Definition.normalize ds)
      (Archive.rejectConflicts (results (Definition.normalize ds) e.results)) :=
    forall₂_of_keys hindices.symm hnodup fun y hy => fate_of_mem hends.yields hy
  rw [tally_eq] at hreport hfailures harchive
  refine ⟨(Archive.rejectConflicts (results (Definition.normalize ds) e.results)).map (·.outcome),
    .of_fates ?_ ?_ ?_ ?_⟩
  · exact List.forall₂_map_right_iff.mpr hfates
  · simpa only [List.filterMap_map, Function.comp_def] using hreport
  · simpa only [List.filterMap_map, Function.comp_def] using hfailures
  · simpa only [List.filterMap_map, Function.comp_def] using harchive

/-- Nothing is lost from a batch and nothing counts twice: whatever order its units go on in, the
report lists each definition once, by its fate, and the archive has what was compiled. Building a
batch is one of these orders. -/
theorem Batch.every_definition_counts_once (cfg : Config) (r : Registry) (s : Session) (d : Disk)
    (ds : List Definition) :
    (∀ o, (Batch.build cfg r s d ds).outcome = .ok o → Batch.Completes cfg r s d ds o) ∧
      ∀ o, Batch.Completes cfg r s d ds o → ∃ final, o.Accounts r ds final :=
  ⟨fun _ => completes_of_build, fun _ => Completes.accounts⟩

namespace Batch

def mixed : List Definition :=
  [.named "p.A" "java" " ", .named "p.B" "java" "emit 1", .named "p.C" "java" "panic",
    .named "p.D" "java" "emit 2"]

def mixedActions (code : String) : List Scripted.Action :=
  if code = "emit 1" then [.emit "p/H.class" [1]]
  else if code = "emit 2" then [.emit "p/H.class" [2]]
  else [.panic none]

def mixedRegistry : Registry := Registry.empty.register .java (Scripted.strategy mixedActions none)

def mixedConfig : Config :=
  ⟨"udf.jar", "work", 2, 1000, none, .named "javac", .named "scalac", none⟩

def mixedSession : Session := ⟨"batch", none, .none⟩

def mixedUnits : List SourceUnit := (Definition.normalize mixed).filterMap Normalized.unit?

def mixedResults : List UnitResult :=
  [⟨1, .compiled ⟨"p.B", .java, [⟨"p/H.class", [1]⟩]⟩, 0⟩,
    ⟨2, .failed ⟨"p.C", ⟨.panicked, "compiler panicked"⟩⟩, 0⟩,
    ⟨3, .compiled ⟨"p.D", .java, [⟨"p/H.class", [2]⟩]⟩, 0⟩]

theorem run_mixed : ∃ e, Execution.run mixedConfig.execution mixedRegistry none ⟨.empty, []⟩
      mixedUnits = ⟨e, none⟩ ∧ e.results = mixedResults ∧
      (Archive.assemble .none e.disk "udf.jar"
        [⟨"p.B", .java, [⟨"p/H.class", [1]⟩]⟩]).outcome.isOk := by
  have hall : mixedUnits.filter (fun u => !mixedResults.any (·.index == u.index)) = [] := by
    decide +kernel
  have hrun : (Execution.runFor mixedConfig.execution mixedRegistry none 10
      (.init ⟨.empty, []⟩ mixedUnits)).any fun e => e.fault = none ∧
        e.state.results = mixedResults ∧ (Archive.assemble .none e.state.disk "udf.jar"
          [⟨"p.B", .java, [⟨"p/H.class", [1]⟩]⟩]).outcome.isOk := by
    decide +kernel
  exact Execution.run_of_runFor (P := fun d => (Archive.assemble .none d "udf.jar"
    [⟨"p.B", .java, [⟨"p/H.class", [1]⟩]⟩]).outcome.isOk) (by decide +kernel) hall hrun

theorem tally_mixed : tally (Definition.normalize mixed) mixedResults =
    ⟨⟨["p.B"], ["p.A", "p.C", "p.D"]⟩,
      [⟨"p.A", ⟨.invalidDefinition, "'p.A' has empty source"⟩⟩,
        ⟨"p.C", ⟨.panicked, "compiler panicked"⟩⟩,
        ⟨"p.D", .diagnostic "archive entry p/H.class clashes with the one produced by p.B"⟩],
      [⟨"p.B", .java, [⟨"p/H.class", [1]⟩]⟩]⟩ := by
  have hsorted : UnitResult.Sorted (results (Definition.normalize mixed) mixedResults) := by
    unfold UnitResult.Sorted
    decide +kernel
  rw [tally_eq, Archive.rejectConflicts, Archive.rejectConflictsBy,
    UnitResult.sort_of_sorted hsorted]
  decide +kernel

theorem every_definition_counts_once_mixed : ∃ o,
    (build mixedConfig mixedRegistry mixedSession ⟨.empty, []⟩ mixed).outcome = .ok o ∧
      o.report = ⟨["p.B"], ["p.A", "p.C", "p.D"]⟩ ∧
      ∃ final, o.Accounts mixedRegistry mixed final := by
  obtain ⟨e, hrun, hresults, hassemble⟩ := run_mixed
  have hvalid : mixedConfig.validate = .ok () := by decide +kernel
  have hbuild : (build mixedConfig mixedRegistry mixedSession ⟨.empty, []⟩ mixed).outcome =
      (finish mixedConfig mixedSession (Definition.normalize mixed) e).outcome := by
    simp only [build, hvalid]
    rw [show mixedSession.cancelAt = none from rfl, ← mixedUnits, hrun]
  obtain ⟨archive, harchive⟩ : ∃ archive, (Archive.assemble .none e.disk "udf.jar"
      [⟨"p.B", .java, [⟨"p/H.class", [1]⟩]⟩]).outcome = .ok archive := by
    revert hassemble
    cases (Archive.assemble .none e.disk "udf.jar" [⟨"p.B", .java, [⟨"p/H.class", [1]⟩]⟩]).outcome with
    | ok archive => exact fun _ => ⟨archive, rfl⟩
    | error fault => simp [Except.isOk, Except.toBool]
  have hoverall := every_definition_counts_once mixedConfig mixedRegistry mixedSession
    ⟨.empty, []⟩ mixed
  rw [finish, hresults, tally_mixed] at hbuild
  simp only [harchive, show mixedConfig.output = "udf.jar" from rfl,
    show mixedSession.refusals = .none from rfl] at hbuild
  exact ⟨_, hbuild, rfl, hoverall.2 _ (hoverall.1 _ hbuild)⟩

end Batch

end FunctionJar
