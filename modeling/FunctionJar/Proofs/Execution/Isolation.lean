import FunctionJar.Proofs.Execution.Accounting
import FunctionJar.Proofs.Execution.Workspaces

namespace FunctionJar

theorem Step.wake_add_duration (step : Step) (now : Nat) (rest : List Step) :
    step.wake now now + duration rest = now + duration (step :: rest) := by
  cases step with
  | sleep ms => simp only [wake, duration]; omega
  | edit e => rfl
  | note event => rfl

namespace Execution

variable {cfg : Settings} {r : Registry} {s t : State} {d : Disk} {units : List SourceUnit}
  {finish : SourceUnit → Finish} {time : SourceUnit → Nat}

/-- Whatever workspace a unit that waits gets, its strategy comes to the same result there, and
after the same time if it comes to one at all. -/
def State.Steady (cfg : Settings) (r : Registry) (finish : SourceUnit → Finish)
    (time : SourceUnit → Nat) (s : State) : Prop :=
  ∀ u ∈ s.queue, ∀ path d,
    Workspace.allocate s.disk cfg.root s.held u.index u.className = .ok (path, d) →
      (r.dispatch u path d).finish = finish u ∧
        (finish u ≠ .hangs → Step.duration (r.dispatch u path d).steps = time u)

def SteadyUnits (cfg : Settings) (r : Registry) (finish : SourceUnit → Finish)
    (time : SourceUnit → Nat) (d : Disk) (units : List SourceUnit) : Prop :=
  ∀ s, Reaches (PromptTurn cfg r) (.init d units) s → s.Steady cfg r finish time

def verdict (cfg : Settings) (finish : SourceUnit → Finish) (time : SourceUnit → Nat)
    (u : SourceUnit) : Outcome :=
  if finish u = .hangs ∨ cfg.unitTimeout < time u then .failed ⟨u.className, timedOut cfg⟩
  else
    match finish u with
    | .compiled c => .compiled c
    | .failed f => .failed ⟨u.className, f⟩
    | .panicked message => .failed ⟨u.className, panicked message⟩
    | .hangs => .failed ⟨u.className, timedOut cfg⟩

theorem verdict_congr {cfg' : Settings} (h : cfg.unitTimeout = cfg'.unitTimeout) :
    verdict cfg finish time = verdict cfg' finish time := by
  funext u
  have hfailure : timedOut cfg = timedOut cfg' := by rw [timedOut, timedOut, h]
  rw [verdict, verdict, hfailure, h]

/-- A unit in progress ends as it does everywhere, and has as much left to do as time to spend. -/
structure Measured (finish : SourceUnit → Finish) (time : SourceUnit → Nat) (a : Active) :
    Prop where
  finish : a.finish = finish a.unit
  time : a.finish ≠ .hangs → a.wake + Step.duration a.rest = a.started + time a.unit

theorem State.Steady.entering (h : s.Steady cfg r finish time) {u : SourceUnit} (hu : u ∈ s.queue)
    {path : String} {d : Disk}
    (hspace : Workspace.allocate s.disk cfg.root s.held u.index u.className = .ok (path, d))
    (now : Nat) : Measured finish time (.entering r u path d now) where
  finish := (h u hu path d hspace).1
  time := by
    intro hfinish
    have hwork := h u hu path d hspace
    exact congrArg (now + ·) (hwork.2 (hwork.1 ▸ hfinish))

theorem Measured.stepped {a : Active} {step : Step} {rest : List Step} {now : Nat}
    (h : Measured finish time a) (hnow : now = a.wake) (hrest : a.rest = step :: rest) :
    Measured finish time (a.stepped now step rest) where
  finish := h.finish
  time := by
    intro hfinish
    have htime := h.time hfinish
    rw [hrest, ← Step.wake_add_duration, ← hnow] at htime
    simpa only [Active.stepped, ← hnow] using htime

theorem Active.not_stuck_of_canAct {now : Nat} {a : Active} (h : a.canAct now) :
    a.isStuck = false ∧ a.wake ≤ now := by
  simpa [Active.canAct] using h

theorem Active.canAct_onTime {now : Nat} {a : Active} (hdue : now ≤ a.due cfg)
    (hact : a.canAct now) : now = a.wake ∧ a.wake ≤ a.started + cfg.unitTimeout := by
  obtain ⟨hfree, hwake⟩ := not_stuck_of_canAct hact
  rw [Active.due, hfree, if_neg Bool.false_ne_true, Active.deadline] at hdue
  omega

theorem Active.late_of_expired {now : Nat} {a : Active} (hdue : a.due cfg ≤ now)
    (hlate : a.canAct now = false) :
    a.finish = .hangs ∨ a.started + cfg.unitTimeout < a.wake := by
  by_cases hstuck : a.isStuck = true
  · simp only [Active.isStuck, Bool.and_eq_true, beq_iff_eq] at hstuck
    exact .inl hstuck.2
  · right
    rw [Active.due, if_neg hstuck, Active.deadline] at hdue
    have hwake : ¬ a.wake ≤ now := by
      simpa [Active.canAct, hstuck] using hlate
    omega

theorem Active.Concludes.eq_verdict {now : Nat} {d : Disk} {a : Active} {o : Outcome}
    (h : a.Concludes cfg now d o) (ha : Measured finish time a) (hdue : a.due cfg ≤ now)
    (htime : now ≤ a.due cfg) (hrelease : ∃ d', Workspace.release d a.workspace = .ok d') :
    o = verdict cfg finish time a.unit := by
  -- A unit that has nothing left to do by its deadline has kept its budget.
  have hkept : a.canAct now → a.rest = [] → a.finish ≠ .hangs →
      ¬ (finish a.unit = .hangs ∨ cfg.unitTimeout < time a.unit) := by
    intro hact hrest hfinish
    have hwork := ha.time hfinish
    obtain ⟨-, hwake⟩ := canAct_onTime htime hact
    rw [hrest, Step.duration] at hwork
    rw [← ha.finish, not_or]
    exact ⟨hfinish, by omega⟩
  cases h with
  | compiled hact hrest hfinish =>
      rw [verdict, if_neg (hkept hact hrest (by simp [hfinish])), ← ha.finish, hfinish]
  | unreleased _ _ _ herror =>
      obtain ⟨d', hok⟩ := hrelease
      simp [hok] at herror
  | failed hact hrest hfinish =>
      rw [verdict, if_neg (hkept hact hrest (by simp [hfinish])), ← ha.finish, hfinish]
  | panicked hact hrest hfinish =>
      rw [verdict, if_neg (hkept hact hrest (by simp [hfinish])), ← ha.finish, hfinish]
  | expired hlate =>
      refine (if_pos ?_).symm
      rw [← ha.finish]
      by_cases hfinish : a.finish = .hangs
      · exact .inl hfinish
      · have hwork := ha.time hfinish
        have hwake := (late_of_expired hdue hlate).resolve_left hfinish
        exact .inr (by omega)

theorem Change.measured (h : Change cfg r s t) (hsteady : s.Steady cfg r finish time)
    (htime : s.OnTime cfg 0) (hs : ∀ a ∈ s.running, Measured finish time a) :
    ∀ a ∈ t.running, Measured finish time a := by
  cases h with
  | collected | refused => exact hs
  | @entered before u after path d _ h _ hspace =>
      intro b hb
      rcases List.mem_append.mp hb with hb | hb
      · exact hs b hb
      · rw [List.mem_singleton.mp hb]
        exact hsteady.entering (by simp [h]) hspace s.now
  | @continued before a after step rest _ h _ hact hrest =>
      intro b hb
      rcases List.mem_append.mp hb with hb | hb
      · exact hs b (by simp [h, hb])
      · rcases List.mem_cons.mp hb with rfl | hb
        · have ha : a ∈ s.running := by simp [h]
          exact (hs a ha).stepped (Active.canAct_onTime (htime a ha) hact).1 hrest
        · exact hs b (by simp [h, hb])
  | ended h =>
      intro b hb
      refine hs b ?_
      rw [h]
      rcases List.mem_append.mp hb with hb | hb <;> simp [hb]

def State.verdicts (cfg : Settings) (finish : SourceUnit → Finish) (time : SourceUnit → Nat)
    (s : State) : List (Nat × Outcome) :=
  s.holdings (fun u => (u.index, verdict cfg finish time u)) fun x => (x.index, x.outcome)

theorem Change.verdicts_perm (h : Change cfg r s t) (htime : s.OnTime cfg 0) (husable : s.Usable cfg)
    (hs : ∀ a ∈ s.running, Measured finish time a) :
    (t.verdicts cfg finish time).Perm (s.verdicts cfg finish time) := by
  refine h.holdings_perm (fun u hu fault hfault => ?_) fun a ha hdue o ho => ?_
  · obtain ⟨place, hplace⟩ := husable.allocates u hu
    simp [hplace] at hfault
  · rw [ho.eq_verdict (hs a ha) hdue (htime a ha) (husable.releases a ha)]

structure InStep (cfg : Settings) (finish : SourceUnit → Finish) (time : SourceUnit → Nat)
    (units : List SourceUnit) (s : State) : Prop where
  onTime : s.OnTime cfg 0
  measured : ∀ a ∈ s.running, Measured finish time a
  verdicts : (s.verdicts cfg finish time).Perm
    (units.map fun u => (u.index, verdict cfg finish time u))

theorem inStep_init (d : Disk) (units : List SourceUnit) :
    InStep cfg finish time units (.init d units) where
  onTime := init_onTime d units
  measured := by simp [State.init]
  verdicts := by simp [State.verdicts, State.holdings, State.init]

theorem PromptTurn.inStep (h : PromptTurn cfg r s t) (husable : s.Usable cfg)
    (hsteady : s.Steady cfg r finish time) (hs : InStep cfg finish time units s) :
    InStep cfg finish time units t := by
  obtain ⟨ms, htime, hc⟩ := h.change
  have husable' : (s.later ms).Usable cfg := ⟨husable.allocates, husable.releases⟩
  exact ⟨hc.onTime htime, hc.measured hsteady htime hs.measured,
    (hc.verdicts_perm htime husable' hs.measured).trans hs.verdicts⟩

theorem Reaches.inStep (h : Reaches (PromptTurn cfg r) (.init d units) s)
    (husable : UsableRoot cfg r d units) (hsteady : SteadyUnits cfg r finish time d units) :
    InStep cfg finish time units s := by
  induction h with
  | refl => exact inStep_init d units
  | next hreach hturn ih => exact hturn.inStep (husable _ hreach) (hsteady _ hreach) ih

theorem results_perm (h : Reaches (PromptTurn cfg r) (.init d units) s) (hidle : s.Idle)
    (husable : UsableRoot cfg r d units) (hsteady : SteadyUnits cfg r finish time d units) :
    (s.results.map fun x => (x.index, x.outcome)).Perm
      (units.map fun u => (u.index, verdict cfg finish time u)) := by
  have hverdicts := (h.inStep husable hsteady).verdicts
  rwa [State.verdicts, holdings_idle hidle] at hverdicts

theorem missing_eq_nil {f : SourceUnit → Outcome}
    (h : (s.results.map fun x => (x.index, x.outcome)).Perm (units.map fun u => (u.index, f u))) :
    s.missing units = [] := by
  rw [State.missing, List.map_eq_nil_iff, List.filter_eq_nil_iff]
  intro u hu
  have hmem : (u.index, f u) ∈ s.results.map fun x => (x.index, x.outcome) :=
    h.symm.subset (List.mem_map_of_mem hu)
  obtain ⟨x, hx, he⟩ := List.mem_map.mp hmem
  have hany : s.results.any (·.index == u.index) = true :=
    List.any_eq_true.mpr ⟨x, hx, by simpa using congrArg Prod.fst he⟩
  simp [hany]

theorem run_completes (hslots : cfg.slots ≤ maxSlots) (hbatch : cfg.batchTimeout = none) (d : Disk)
    (units : List SourceUnit) : (run cfg r none d units).fault = none := by
  have hlater : (none : Option Nat) ≠ some 0 := nofun
  rw [fault_run hlater hslots, runFrom_fault hbatch]

/-- However the units go on, they come to an end with one result for each, and that has the outcome
that is named; so does the execution itself, which only a request or a deadline can cut short. -/
structure Settles (cfg : Settings) (r : Registry) (d : Disk) (units : List SourceUnit)
    (outcome : SourceUnit → Outcome) : Prop where
  ends : WellFounded fun t s => PromptTurn cfg r s t
  goesOn : ∀ s, Reaches (PromptTurn cfg r) (.init d units) s →
    s.Idle ∨ ∃ t, PromptTurn cfg r s t
  results : ∀ s, Reaches (PromptTurn cfg r) (.init d units) s → s.Idle →
    (s.results.map fun x => (x.index, x.outcome)).Perm (units.map fun u => (u.index, outcome u))
  run : ∀ cancelAt, (run cfg r cancelAt d units).fault = none →
    ((run cfg r cancelAt d units).state.results.map fun x => (x.index, x.outcome)).Perm
      (units.map fun u => (u.index, outcome u))
  ok : cfg.batchTimeout = none → (Execution.run cfg r none d units).fault = none

theorem promptTurn_wf : WellFounded fun t s => PromptTurn cfg r s t := by
  have hany : WellFounded fun t s => AnyTurn cfg r s t := anyTurn_wf
  exact Subrelation.wf (fun h => .inl (PromptTurn.turn h)) hany

theorem UsableRoot.goes_on (husable : UsableRoot cfg r d units)
    (hsteady : SteadyUnits cfg r finish time d units)
    (h : Reaches (PromptTurn cfg r) (.init d units) s) : s.Idle ∨ ∃ t, PromptTurn cfg r s t := by
  by_cases hidle : s.Idle
  · exact .inl hidle
  · exact .inr (exists_promptTurn (h.inStep husable hsteady).onTime hidle)

theorem UsableRoot.settles (husable : UsableRoot cfg r d units) (hslots : cfg.slots ≤ maxSlots)
    (hsteady : SteadyUnits cfg r finish time d units) :
    Settles cfg r d units (verdict cfg finish time) where
  ends := promptTurn_wf
  goesOn := fun _ h => husable.goes_on hsteady h
  results := fun s h hidle => results_perm h hidle husable hsteady
  run := by
    intro cancelAt hrun
    obtain ⟨s, hreach, hidle, hstate⟩ := run_cases hrun
    have hresults := results_perm hreach hidle husable hsteady
    rw [hstate, State.completed, missing_eq_nil hresults, List.append_nil]
    exact hresults
  ok := fun hbatch => run_completes hslots hbatch d units

/-- Each unit of a batch comes to the outcome that it comes to alone, with any number of workers
that can be counted and on any disk. With more of them nothing is executed. -/
theorem settles_as_alone (husable : UsableRoot cfg r d units)
    (hsteady : SteadyUnits cfg r finish time d units) :
    (cfg.slots ≤ maxSlots → Settles cfg r d units (verdict cfg finish time)) ∧
      (maxSlots < cfg.slots → ∀ cancelAt, cancelAt ≠ some 0 →
        run cfg r cancelAt d units = ⟨.init d [], some .tooManySlots⟩) ∧
      ∀ u ∈ units, ∀ cfg' d', cfg'.unitTimeout = cfg.unitTimeout → cfg'.slots ≤ maxSlots →
        UsableRoot cfg' r d' [u] → SteadyUnits cfg' r finish time d' [u] →
          Settles cfg' r d' [u] (verdict cfg finish time) := by
  refine ⟨fun hslots => husable.settles hslots hsteady, fun hslots _ hlater => ?_, ?_⟩
  · exact run_crowded hlater hslots
  · intro u _ cfg' d' htimeout hslots' husable' hsteady'
    rw [← verdict_congr htimeout]
    exact husable'.settles hslots' hsteady'

def napFinish (u : SourceUnit) : Finish :=
  if u.index = 1 then .panicked none else .compiled ⟨u.className, u.dialect, [⟨"nap", []⟩]⟩

def napping : Registry := ⟨fun _ => some fun u _ _ => ⟨[.sleep (1000 * u.index)], napFinish u⟩⟩

theorem dispatch_napping (u : SourceUnit) (path : String) (d : Disk) :
    napping.dispatch u path d = ⟨[.sleep (1000 * u.index)], napFinish u⟩ := by
  simp only [Registry.dispatch, napping, Registry.checked, napFinish]
  by_cases h : u.index = 1 <;> simp [h]

def naps : List SourceUnit :=
  [⟨0, "", "A", .java, ""⟩, ⟨1, "", "B", .java, ""⟩, ⟨2, "", "C", .java, ""⟩]

def napDisk : Disk := ⟨.folder [("ws", .empty)], []⟩

theorem settles_as_alone_napping : ∃ outcome : SourceUnit → Outcome,
    naps.map outcome = [.compiled ⟨"A", .java, [⟨"nap", []⟩]⟩, .failed ⟨"B", panicked none⟩,
      .failed ⟨"C", .timeout, "compilation exceeded 1500ms time budget"⟩] ∧
    Settles ⟨"/ws", 2, 1500, none⟩ napping napDisk naps outcome ∧
      (∀ u ∈ naps, Settles ⟨"/ws", 1, 1500, none⟩ napping napDisk [u] outcome) ∧
      run ⟨"/ws", maxSlots + 1, 1500, none⟩ napping none napDisk naps =
        ⟨.init napDisk [], some .tooManySlots⟩ := by
  have hsteady : ∀ cfg us,
      SteadyUnits cfg napping napFinish (fun u => 1000 * u.index) napDisk us := by
    intro cfg us s _ u _ path d _
    rw [dispatch_napping]
    exact ⟨rfl, fun _ => rfl⟩
  have husable : ∀ workers us, (∀ u ∈ us, ∀ n ≤ 0 + 2 * us.length,
      Workspace.Fits "/ws" (Workspace.stem u.index u.className ++ unique n)) →
        UsableRoot ⟨"/ws", workers, 1500, none⟩ napping napDisk us := by
    intro workers us hnames
    have hground : Workspace.Ground "/ws" ["ws"] [] napDisk :=
      ⟨⟨by decide +kernel, by decide +kernel, by decide +kernel, by decide +kernel,
        by decide +kernel, by decide +kernel⟩, rfl⟩
    refine usableRoot_of_confined hground hnames fun s hreach => confined_of_quiet ?_ hreach
    intro u path d e
    simp [dispatch_napping]
  have hnaps : ∀ workers, UsableRoot ⟨"/ws", workers, 1500, none⟩ napping napDisk naps :=
    fun workers => husable workers naps (by decide +kernel)
  obtain ⟨hbatch, -, halone⟩ := settles_as_alone (hnaps 2) (hsteady _ naps)
  obtain ⟨-, hcrowded, -⟩ := settles_as_alone (hnaps (maxSlots + 1)) (hsteady _ naps)
  refine ⟨_, by decide +kernel, hbatch (by decide +kernel), fun u hu => ?_,
    hcrowded (by decide +kernel) none nofun⟩
  refine halone u hu _ _ rfl (by decide +kernel) (husable 1 [u] ?_) (hsteady _ [u])
  revert u
  decide +kernel

/-- With so many workers no unit has a result, though nothing has been cancelled. -/
theorem crowded_naps_have_no_result :
    ∃ e, run ⟨"/ws", maxSlots + 1, 1500, none⟩ napping none napDisk naps = e ∧
      e.fault = some .tooManySlots ∧ ∀ u ∈ naps, u.index ∉ e.state.results.map (·.index) := by
  have hcrowded := @run_crowded ⟨"/ws", maxSlots + 1, 1500, none⟩ napping none napDisk naps
  exact ⟨_, hcrowded nofun (by decide +kernel), rfl, fun _ _ => List.not_mem_nil⟩

end Execution

end FunctionJar
