import FunctionJar.Proofs.Execution.Cancellation
import FunctionJar.Proofs.Execution.Isolation
import FunctionJar.Proofs.Execution.Workspaces

namespace FunctionJar

theorem Disk.filled_filled {d : Disk} {top : List String} (h : (d.root.get? top).isSome)
    (items items' : List (String × Node)) :
    (d.filled top items).filled top items' = d.filled top items' := by
  have hput := Node.put_put h [] (.folder items) (.folder items')
  rw [List.append_nil] at hput
  exact congrArg d.withRoot hput

end FunctionJar

namespace FunctionJar.Execution

open Workspace (Ground Fits stem)

variable {cfg : Settings} {r : Registry} {cancelAt : Option Nat} {d : Disk}
  {units : List SourceUnit} {s t : State} {e : Ended}
  {top : List String} {room : Nat} {items own : List (String × Node)}

structure State.Tidy (cfg : Settings) (top : List String) (room : Nat)
    (items : List (String × Node)) (d : Disk) (own : List (String × Node)) (s : State) : Prop where
  kept : s.Kept cfg top room (items ++ own)
  disk : s.disk = d.filled top (items ++ own)
  held : ∀ name ∈ own.map (·.1), Plain name ∧ Path.join cfg.root name ∈ s.held
  new : ∀ path ∈ s.held, ∃ name, Plain name ∧ path = Path.join cfg.root name ∧
    items.lookup name = none
  distinct : (own.map (·.1)).Nodup

theorem State.Tidy.later (hs : s.Tidy cfg top room items d own) (ms : Nat) :
    (s.later ms).Tidy cfg top room items d own :=
  ⟨hs.kept.later ms, hs.disk, hs.held, hs.new, hs.distinct⟩

theorem State.Tidy.lookup (hs : s.Tidy cfg top room items d own) {a : Active} {name : String}
    {n : Node} (ha : a ∈ s.running) (hname : Plain name)
    (hpath : a.workspace = Path.join cfg.root name) (h : (items ++ own).lookup name = some n) :
    items.lookup name = none ∧ own.lookup name = some n := by
  obtain ⟨other, hother, hsame, hnew⟩ := hs.new _ (List.mem_map_of_mem ha)
  obtain rfl := hs.kept.ground.spells.join_inj hname hother (hpath.symm.trans hsame)
  rw [List.lookup_append, hnew] at h
  exact ⟨hnew, h⟩

theorem State.Tidy.filled (hs : s.Tidy cfg top room items d own) (hground : Ground cfg.root top items d)
    (items' : List (String × Node)) : s.disk.filled top items' = d.filled top items' := by
  rw [hs.disk, Disk.filled_filled hground.isSome]

theorem State.Tidy.left (hs : s.Tidy cfg top room items d own) (hground : Ground cfg.root top items d)
    {before after : List Active} {a : Active} {ready : List UnitResult} {events : List Log.Event}
    (h : s.running = before ++ a :: after) : ∃ own', State.Tidy cfg top room items d own' { s with
      disk := Workspace.discard s.disk a.workspace
      running := before ++ after
      ready
      events } := by
  have ha : a ∈ s.running := by simp [h]
  obtain ⟨name, files, hname, hpath, hfolder, hdisk, hkept⟩ :=
    hs.kept.left h ready events
  obtain ⟨hnew, -⟩ := hs.lookup ha hname.plain hpath hfolder
  have hfilter : (items ++ own).filter (fun item => item.1 != name) =
      items ++ own.filter (fun item => item.1 != name) := by
    rw [List.filter_append, Node.filter_of_lookup_none hnew]
  rw [hfilter] at hdisk hkept
  refine ⟨_, hkept, hdisk.trans (hs.filled hground _), ?_, ?_,
    hs.distinct.sublist (List.filter_sublist.map _)⟩
  · intro other hother
    obtain ⟨item, hitem, rfl⟩ := List.mem_map.mp hother
    obtain ⟨hmem, hne⟩ := List.mem_filter.mp hitem
    obtain ⟨hplain, hheld⟩ := hs.held item.1 (List.mem_map_of_mem hmem)
    refine ⟨hplain, ?_⟩
    simp only [State.held, h, List.map_append, List.map_cons, List.mem_append,
      List.mem_cons] at hheld ⊢
    rcases hheld with hheld | hheld | hheld
    · exact .inl hheld
    · have hsame := hground.spells.join_inj hplain hname.plain (hheld.trans hpath)
      exact absurd hsame (by simpa using hne)
    · exact .inr hheld
  · intro path hmem
    refine hs.new path ?_
    simp only [State.held, h, List.map_append, List.map_cons, List.mem_append,
      List.mem_cons] at hmem ⊢
    exact hmem.imp_right .inr

theorem Change.tidy (h : Change cfg r s t) (hconfined : s.Confined cfg top)
    (hground : Ground cfg.root top items d) (hs : s.Tidy cfg top room items d own) :
    ∃ own', t.Tidy cfg top room items d own' := by
  cases h with
  | collected h =>
      have hkept := hs.kept
      exact ⟨own, ⟨hkept.ground, hkept.housed, hkept.distinct, hkept.names, hkept.space⟩,
        hs.disk, hs.held, hs.new, hs.distinct⟩
  | @refused before u after fault h hfault =>
      obtain ⟨place, hplace⟩ := hs.kept.usable.allocates u (by simp [h])
      simp [hplace] at hfault
  | @entered before u after path d' peak h _ hspace =>
      obtain ⟨name, hname, rfl, hfree, hdisk, hkept⟩ := hs.kept.entered h hspace peak
      obtain ⟨hnew, hown⟩ : items.lookup name = none ∧ own.lookup name = none := by
        simpa [List.lookup_append] using hfree
      rw [List.append_assoc] at hdisk hkept
      refine ⟨_, hkept, hdisk.trans (hs.filled hground _), ?_, ?_, ?_⟩
      · intro other hother
        simp only [List.map_append, List.map_cons, List.map_nil, List.mem_append,
          List.mem_singleton] at hother
        rcases hother with hother | rfl
        · obtain ⟨hplain, hheld⟩ := hs.held other hother
          exact ⟨hplain, by simp only [State.held, List.map_append]; exact List.mem_append_left _ hheld⟩
        · exact ⟨hname.plain, by simp [State.held, Active.entering]⟩
      · intro path hpath
        simp only [State.held, List.map_append, List.map_cons, List.map_nil, List.mem_append,
          List.mem_singleton] at hpath
        rcases hpath with hpath | rfl
        · exact hs.new path hpath
        · exact ⟨name, hname.plain, rfl, hnew⟩
      · rw [List.map_append]
        refine List.nodup_append.mpr ⟨hs.distinct, List.pairwise_singleton _ _, ?_⟩
        intro old hold new hnew' he
        obtain rfl := List.mem_singleton.mp hnew'
        obtain ⟨item, hitem, rfl⟩ := List.mem_map.mp hold
        simpa [he] using List.lookup_eq_none_iff.mp hown item hitem
  | @continued before a after step rest events h _ _ hrest =>
      have ha : a ∈ s.running := by simp [h]
      have hheld : s.held = (before ++ a.stepped s.now step rest :: after).map (·.workspace) := by
        simp [State.held, h, Active.stepped]
      obtain ⟨name, files, files', hname, hpath, hfolder, hdisk, hkept⟩ :=
        hs.kept.continued hconfined h hrest events
      obtain ⟨hnew, hown⟩ := hs.lookup ha hname.plain hpath hfolder
      rw [Node.putItem_append hnew] at hdisk hkept
      refine ⟨_, hkept, hdisk.trans (hs.filled hground _), ?_, ?_, ?_⟩
      · rw [Node.map_fst_putItem hown, State.held, ← hheld]
        exact hs.held
      · rw [State.held, ← hheld]
        exact hs.new
      · rw [Node.map_fst_putItem hown]
        exact hs.distinct
  | ended h => exact hs.left hground h

theorem AnyTurn.tidy (h : AnyTurn cfg r s t) (hconfined : s.Confined cfg top)
    (hground : Ground cfg.root top items d) (hs : s.Tidy cfg top room items d own) :
    ∃ own', t.Tidy cfg top room items d own' := by
  rcases h with h | h
  · obtain ⟨ms, hc⟩ := h.change
    exact hc.tidy (s := s.later ms) hconfined hground (hs.later ms)
  · cases h with
    | intro h => exact hs.left hground h

theorem tidy_init (hground : Ground cfg.root top items d)
    (hnames : ∀ u ∈ units, ∀ n ≤ items.length + 2 * units.length,
      Fits cfg.root (stem u.index u.className ++ unique n)) :
    (State.init d units).Tidy cfg top (items.length + 2 * units.length) items d [] := by
  refine ⟨?_, ?_, by simp, by simp [State.held, State.init], .nil⟩
  · rw [List.append_nil]
    exact kept_init hground hnames
  · rw [List.append_nil, hground.filled_self]
    rfl

/-- The strategies keep to their workspaces, in whatever order the units go on and are torn down. -/
def AllConfined (cfg : Settings) (r : Registry) (top : List String) (d : Disk)
    (units : List SourceUnit) : Prop :=
  ∀ s, Reaches (AnyTurn cfg r) (.init d units) s → s.Confined cfg top

structure Roomy (cfg : Settings) (top : List String) (items : List (String × Node)) (d : Disk)
    (units : List SourceUnit) : Prop where
  ground : Ground cfg.root top items d
  names : ∀ u ∈ units, ∀ n ≤ items.length + 2 * units.length,
    Fits cfg.root (stem u.index u.className ++ unique n)

theorem Reaches.tidy (h : Reaches (AnyTurn cfg r) (.init d units) s)
    (hroomy : Roomy cfg top items d units) (hconfined : AllConfined cfg r top d units) :
    ∃ own, s.Tidy cfg top (items.length + 2 * units.length) items d own := by
  induction h with
  | refl => exact ⟨[], tidy_init hroomy.ground hroomy.names⟩
  | @next s t hreach hstep ih =>
      obtain ⟨own, hs⟩ := ih
      exact hstep.tidy (hconfined s hreach) hroomy.ground hs

theorem removable_of_confined (hroomy : Roomy cfg top items d units)
    (hconfined : AllConfined cfg r top d units) : Removable cfg r d units := by
  intro s h
  obtain ⟨own, hs⟩ := h.tidy hroomy hconfined
  exact hs.kept.usable.releases

theorem Reaches.disk_eq (h : Reaches (AnyTurn cfg r) (.init d units) s)
    (hroomy : Roomy cfg top items d units) (hconfined : AllConfined cfg r top d units)
    (hempty : s.running = []) : s.disk = d := by
  obtain ⟨own, hs⟩ := h.tidy hroomy hconfined
  have hown : own = [] := by
    refine List.eq_nil_iff_forall_not_mem.mpr fun item hitem => ?_
    obtain ⟨-, hheld⟩ := hs.held item.1 (List.mem_map_of_mem hitem)
    simp [State.held, hempty] at hheld
  rw [hs.disk, hown, List.append_nil, hroomy.ground.filled_self]

theorem Returns.disk_eq (h : Returns cfg r cancelAt d units e)
    (hroomy : Roomy cfg top items d units) (hconfined : AllConfined cfg r top d units) :
    e.state.disk = d := by
  cases h with
  | beforeStart | crowded => rfl
  | after _ _ hreach hgives =>
      cases hgives with
      | completed hidle => exact hreach.disk_eq hroomy hconfined hidle.2.1
      | stopped hstops => exact (hreach.trans hstops.down).disk_eq hroomy hconfined hstops.empty

theorem allConfined_of_quiet (hquiet : Quiet r) : AllConfined cfg r top d units := by
  intro s h
  have hs : s.Quiet := by
    refine h.invariant (P := State.Quiet) ?_ (by simp [State.Quiet, State.init])
    intro s t hs hstep
    rcases hstep with hturn | hloss
    · obtain ⟨ms, hc⟩ := hturn.change
      exact hc.quiet (s := s.later ms) hquiet hs
    · cases hloss with
      | intro h => exact fun b hb => hs.left h hb
  exact hs.confined

theorem Gives.last (h : Gives cfg r cancelAt units s e) :
    ∃ t, Reaches (AnyTurn cfg r) s t ∧ t.running = [] ∧ e.state.disk = t.disk := by
  cases h with
  | completed hidle => exact ⟨s, .refl, hidle.2.1, rfl⟩
  | stopped hstops => exact ⟨_, hstops.down, hstops.empty, rfl⟩

/-- What executing units comes to in all orders in which they may go on and be stopped: all of the
results, or none. -/
structure AllOrNothing (cfg : Settings) (r : Registry) (cancelAt : Option Nat) (d : Disk)
    (units : List SourceUnit) : Prop where
  ends : WellFounded fun t s => AnyTurn cfg r s t
  returns : cancelAt ≠ some 0 → ∀ e, Returns cfg r cancelAt d units e ↔
    ∃ s, Reaches (AnyTurn cfg r) (.init d units) s ∧ Gives cfg r cancelAt units s e
  stops : ∀ s ms c, ¬ s.Idle → Fires cfg cancelAt (s.now + ms) c →
    ∃ e, Gives cfg r cancelAt units s e ∧ e.fault = some (.cancelled c)
  cutOff : ∀ s e, ¬ s.Idle → Gives cfg r cancelAt units s e →
    (∃ c ms, e.fault = some (.cancelled c) ∧ Fires cfg cancelAt (s.now + ms) c) ∧
      e.state.results = [] ∧ e.state.Still cfg
  collected : ∀ s e, Reaches (AnyTurn cfg r) (.init d units) s → s.Idle →
    (∀ c, ¬ Fires cfg cancelAt s.now c) → Gives cfg r cancelAt units s e →
      e = ⟨s.completed units, none⟩ ∧
        ((units.map (·.index)).Nodup ∨ Reaches (Turn cfg r) (.init d units) s →
          (e.state.results.map (·.index)).Perm (units.map (·.index)))
  removed : ∀ s t e, Reaches (AnyTurn cfg r) (.init d units) s → Reaches (AnyTurn cfg r) s t →
    Gives cfg r cancelAt units t e → ∃ u, Reaches (AnyTurn cfg r) t u ∧ u.running = [] ∧
      e.state.disk = u.disk ∧ ∀ path ∈ s.held, Removed cfg r s u path
  clean : ∀ top items, Roomy cfg top items d units → AllConfined cfg r top d units →
    ∀ e, Returns cfg r cancelAt d units e → e.state.disk = d

theorem Returns.before_start (h : Returns cfg r cancelAt d units e) (hzero : cancelAt = some 0) :
    e = ⟨.init d [], some (.cancelled .beforeStart)⟩ := by
  cases h with
  | beforeStart => rfl
  | crowded hlater | after hlater => exact absurd hzero hlater

theorem Returns.crowded_out (h : Returns cfg r cancelAt d units e) (hlater : cancelAt ≠ some 0)
    (hslots : maxSlots < cfg.slots) : e = ⟨.init d [], some .tooManySlots⟩ := by
  cases h with
  | beforeStart hzero => exact absurd hzero hlater
  | crowded => rfl
  | after _ hfew => exact absurd hfew (Nat.not_le.mpr hslots)

theorem returns_iff_gives (hlater : cancelAt ≠ some 0) (hslots : cfg.slots ≤ maxSlots) :
    Returns cfg r cancelAt d units e ↔
      ∃ s, Reaches (AnyTurn cfg r) (.init d units) s ∧ Gives cfg r cancelAt units s e := by
  constructor
  · intro h
    cases h with
    | beforeStart hzero => exact absurd hzero hlater
    | crowded _ hcrowded => exact absurd hslots (Nat.not_le.mpr hcrowded)
    | after _ _ hreach hgives => exact ⟨_, hreach, hgives⟩
  · rintro ⟨s, hreach, hgives⟩
    exact .after hlater hslots hreach hgives

theorem allOrNothing_of_slots (hslots : cfg.slots ≤ maxSlots)
    (hremovable : Removable cfg r d units) : AllOrNothing cfg r cancelAt d units where
  ends := anyTurn_wf
  returns := fun hlater _ => returns_iff_gives hlater hslots
  stops := by
    intro s ms c hs hfires
    have hstops : Stops cfg r cancelAt s { s with
        disk := s.running.foldl (fun d a => Workspace.discard d a.workspace) s.disk
        running := [] } c :=
      ⟨⟨ms, fun hidle => absurd hidle hs, hfires⟩, reaches_torn_down s, rfl⟩
    have hgives := @Gives.stopped cfg r cancelAt units s _ c [] hstops
    exact ⟨_, hgives, rfl⟩
  cutOff := fun _ _ hs h => h.cut_off hs
  collected := by
    intro s e hreach hidle hfirst h
    obtain rfl := h.all_collected hidle hfirst
    exact ⟨rfl, completed_indices_perm hreach hidle⟩
  removed := by
    intro s t e hs ht h
    obtain ⟨u, hu, hempty, hdisk⟩ := h.last
    exact ⟨u, hu, hempty, hdisk, (ht.trans hu).removed hs hremovable hempty⟩
  clean := fun _ _ hroomy hconfined _ h => h.disk_eq hroomy hconfined

/-- An execution that is cancelled before it starts does nothing. Otherwise it does nothing either
if its slots cannot be counted, and if they can it gives back all of the results, or none. -/
theorem all_results_or_none (hremovable : Removable cfg r d units) :
    Returns cfg r cancelAt d units (run cfg r cancelAt d units) ∧
      (cancelAt = some 0 → ∀ e, Returns cfg r cancelAt d units e →
        e = ⟨.init d [], some (.cancelled .beforeStart)⟩) ∧
      (cancelAt ≠ some 0 → maxSlots < cfg.slots → ∀ e, Returns cfg r cancelAt d units e →
        e = ⟨.init d [], some .tooManySlots⟩) ∧
      (cfg.slots ≤ maxSlots → AllOrNothing cfg r cancelAt d units) :=
  ⟨returns_run cfg r cancelAt d units, fun hzero _ h => h.before_start hzero,
    fun hlater hslots _ h => h.crowded_out hlater hslots,
    fun hslots => allOrNothing_of_slots hslots hremovable⟩

def napSettings : Settings := ⟨"/ws", 2, 5000, none⟩

def crowdedSettings : Settings := { napSettings with workers := maxSlots + 1 }

theorem slots_napSettings : napSettings.slots ≤ maxSlots := by decide +kernel

theorem roomy_napping : Roomy napSettings ["ws"] [] napDisk naps :=
  ⟨⟨⟨by decide +kernel, by decide +kernel, by decide +kernel, by decide +kernel,
    by decide +kernel, by decide +kernel⟩, rfl⟩, by decide +kernel⟩

theorem allConfined_napping : AllConfined cfg napping top d units := by
  refine allConfined_of_quiet fun u path d e => ?_
  simp [dispatch_napping]

theorem fault_naps {moment : Nat} {f : Option Fault} (hlater : moment ≠ 0)
    (h : (runFor napSettings napping (some moment) 20 (.init napDisk naps)).any
      (·.fault = f)) : (run napSettings napping (some moment) napDisk naps).fault = f := by
  obtain ⟨e, he, hfault⟩ := (Option.any_eq_true _ _).mp h
  rw [fault_run (by simpa using hlater) slots_napSettings, runFrom_of_runFor he]
  exact of_decide_eq_true hfault

theorem all_results_or_none_napping :
    (AllOrNothing napSettings napping (some 1500) napDisk naps ∧
      (run napSettings napping (some 1500) napDisk naps).fault = some (.cancelled .requested) ∧
      (run napSettings napping (some 1500) napDisk naps).state.disk = napDisk) ∧
    (run napSettings napping (some 2500) napDisk naps).fault = none ∧
    run crowdedSettings napping none napDisk naps = ⟨.init napDisk [], some .tooManySlots⟩ := by
  have hroomy : Roomy crowdedSettings ["ws"] [] napDisk naps :=
    ⟨roomy_napping.ground, roomy_napping.names⟩
  obtain ⟨hreturned, -, -, hall⟩ := @all_results_or_none napSettings napping (some 1500) napDisk
    naps (removable_of_confined roomy_napping allConfined_napping)
  obtain ⟨hreturned', -, hcrowded, -⟩ := @all_results_or_none crowdedSettings napping none napDisk
    naps (removable_of_confined hroomy allConfined_napping)
  refine ⟨⟨hall slots_napSettings, fault_naps (by decide) (by decide +kernel), ?_⟩,
    fault_naps (by decide) (by decide +kernel), ?_⟩
  · exact (hall slots_napSettings).clean _ _ roomy_napping allConfined_napping _ hreturned
  · exact hcrowded nofun (by decide +kernel) _ hreturned'

/-- Of no units all results are there from the start, and still the execution is at fault. -/
theorem crowded_batch_of_none_fails :
    (State.init napDisk []).Idle ∧
      (run crowdedSettings napping none napDisk []).fault = some .tooManySlots := by
  have hlater : (none : Option Nat) ≠ some 0 := nofun
  have hslots : maxSlots < crowdedSettings.slots := by decide +kernel
  exact ⟨⟨rfl, rfl, rfl⟩, by rw [run_crowded hlater hslots]⟩

end FunctionJar.Execution
