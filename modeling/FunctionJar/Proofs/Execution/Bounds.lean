import FunctionJar.Proofs.Confinement
import FunctionJar.Proofs.Execution.Leftovers
import FunctionJar.Proofs.Execution.Permits
import Mathlib.Data.List.Nodup

namespace FunctionJar.Execution

variable {cfg : Settings} {r : Registry} {cancelAt : Option Nat} {d : Disk}
  {units : List SourceUnit} {s t : State} {e : Ended} {top : List String} {room : Nat}
  {items own : List (String × Node)}

def FreshNames (cfg : Settings) (r : Registry) (d : Disk) (units : List SourceUnit) : Prop :=
  ∀ s, Reaches (AnyTurn cfg r) (.init d units) s → ∀ u ∈ s.queue, ∀ path d',
    Workspace.allocate s.disk cfg.root s.held u.index u.className = .ok (path, d') →
      path ∉ s.held

theorem freshNames_of_valid (h : ∀ u ∈ units, ClassName.Valid u.className) :
    FreshNames cfg r d units := by
  intro s hreach u hu path d' hspace
  have hinit : Sourced r units (.init d units) :=
    ⟨fun u hu => hu, by simp [State.init], by simp [State.init]⟩
  have hs := hreach.invariant (P := Sourced r units) (fun _ _ => AnyTurn.sourced) hinit
  exact Workspace.allocate_fresh (h u (hs.queue u hu)) hspace

theorem nodup_held_left {before after : List Active} {a : Active} (hs : s.held.Nodup)
    (h : s.running = before ++ a :: after) :
    ((before ++ after).map (·.workspace)).Nodup := by
  refine hs.sublist (List.Sublist.map _ ?_)
  rw [h]
  exact List.Sublist.append_left (List.sublist_cons_self a after) before

theorem AnyTurn.nodup_held (h : AnyTurn cfg r s t) (hs : s.held.Nodup)
    (hfresh : ∀ u ∈ s.queue, ∀ path d',
      Workspace.allocate s.disk cfg.root s.held u.index u.className = .ok (path, d') →
        path ∉ s.held) : t.held.Nodup := by
  rcases h with hturn | hloss
  · obtain ⟨ms, hc⟩ := hturn.change
    cases hc with
    | collected | refused => exact hs
    | @entered before u after path d _ hqueue _ hspace =>
        have hqueue : s.queue = before ++ u :: after := hqueue
        have hnew := hfresh u (by simp [hqueue]) path d hspace
        rw [State.held, List.map_append]
        exact hs.append (List.nodup_singleton path) (by simpa [Active.entering] using hnew)
    | @continued before a after step rest _ hrunning =>
        have hrunning : s.running = before ++ a :: after := hrunning
        simpa [State.held, hrunning, Active.stepped] using hs
    | ended hrunning => exact nodup_held_left hs hrunning
  · cases hloss with
    | intro hrunning => exact nodup_held_left hs hrunning

theorem Reaches.nodup_held (h : Reaches (AnyTurn cfg r) (.init d units) s)
    (hfresh : FreshNames cfg r d units) : s.held.Nodup := by
  induction h with
  | refl => exact .nil
  | @next s t hreach hstep ih => exact hstep.nodup_held ih (hfresh s hreach)

/-- The root of the workspaces has what it had at first, and beside that the workspaces that are in
use and no other. -/
structure State.Stocked (cfg : Settings) (top : List String) (items : List (String × Node))
    (d : Disk) (own : List (String × Node)) (s : State) : Prop where
  disk : s.disk = d.filled top (items ++ own)
  held : (own.map fun item => Path.join cfg.root item.1).Perm s.held
  new : ∀ item ∈ own, items.lookup item.1 = none

theorem State.Tidy.stocked (hs : s.Tidy cfg top room items d own) :
    s.Stocked cfg top items d own := by
  have hplain : ∀ item ∈ own, Plain item.1 := fun item hitem =>
    (hs.held item.1 (List.mem_map_of_mem hitem)).1
  refine ⟨hs.disk, ?_, fun item hitem => ?_⟩
  · have hpaths : ((own.map (·.1)).map (Path.join cfg.root)).Nodup := by
      refine List.Nodup.map_on (fun name hname other hother he => ?_) hs.distinct
      exact hs.kept.ground.spells.join_inj (hs.held name hname).1 (hs.held other hother).1 he
    rw [List.map_map] at hpaths
    refine (List.perm_ext_iff_of_nodup hpaths hs.kept.distinct).mpr fun path => ⟨?_, ?_⟩
    · intro hpath
      obtain ⟨item, hitem, rfl⟩ := List.mem_map.mp hpath
      exact (hs.held item.1 (List.mem_map_of_mem hitem)).2
    · intro hpath
      obtain ⟨a, ha, rfl⟩ := List.mem_map.mp hpath
      obtain ⟨name, files, hname, hjoin, hfolder⟩ := hs.kept.housed a ha
      obtain ⟨-, hown⟩ := hs.lookup ha hname.plain hjoin hfolder
      obtain ⟨front, back, hsplit, -⟩ := List.lookup_eq_some_iff.mp hown
      exact List.mem_map.mpr ⟨(name, .folder files), by simp [hsplit], hjoin.symm⟩
  · obtain ⟨name, hname, hjoin, hnone⟩ := hs.new _ (hs.held item.1 (List.mem_map_of_mem hitem)).2
    rw [hs.kept.ground.spells.join_inj (hplain item hitem) hname hjoin]
    exact hnone

theorem Returns.last (h : Returns cfg r cancelAt d units e) :
    ∃ s, Reaches (AnyTurn cfg r) (.init d units) s ∧ s.running = [] ∧ e.state.running = [] ∧
      e.state.disk = s.disk := by
  cases h with
  | beforeStart | crowded => exact ⟨_, .refl, rfl, rfl, rfl⟩
  | after _ _ hreach hgives =>
      cases hgives with
      | completed hidle => exact ⟨_, hreach, hidle.2.1, hidle.2.1, rfl⟩
      | stopped hstops =>
          exact ⟨_, hreach.trans hstops.down, hstops.empty, hstops.empty, rfl⟩

theorem Ledger.Balanced.closed {b : Ledger} (h : b.Balanced units s) (hempty : s.running = []) :
    b.given.Perm b.taken ∧ b.made.Perm (b.removed ++ b.abandoned) := by
  have hpermits := h.permits
  have hspaces := h.workspaces
  simp only [State.held, hempty, List.map_nil, List.append_nil] at hpermits hspaces
  exact ⟨hpermits.symm, hspaces⟩

structure Bounded (cfg : Settings) (r : Registry) (cancelAt : Option Nat) (d : Disk)
    (units : List SourceUnit) : Prop where
  returned : Returns cfg r cancelAt d units (run cfg r cancelAt d units)
  within : ∀ s, Reaches (AnyTurn cfg r) (.init d units) s →
    s.running.length ≤ max 1 cfg.workers ∧
      State.strategies r s.running ≤ max 1 cfg.workers ∧ s.peak ≤ max 1 cfg.workers ∧
        s.held.length ≤ max 1 cfg.workers
  distinct : FreshNames cfg r d units → ∀ s, Reaches (AnyTurn cfg r) (.init d units) s →
    s.held.Nodup
  booked : ∀ s, Reaches (AnyTurn cfg r) (.init d units) s →
    ∃ b, Booked cfg r (.init d units) s b
  balanced : ∀ s b, Booked cfg r (.init d units) s b → b.Balanced units s ∧
    (Removable cfg r d units → b.abandoned = [])
  offers : ∀ s b, Booked cfg r (.init d units) s b → ∀ front u back,
    s.queue = front ++ u :: back → (s.Offers cfg (.start u (front ++ back)) ↔ b.HasPermit cfg)
  waits : ∀ s m, Reaches (AnyTurn cfg r) (.init d units) s → s.move? cfg = some m →
    s.now < s.time cfg m → s.queue = [] ∨ s.running.length = max 1 cfg.workers
  closed : ∀ e, Returns cfg r cancelAt d units e → ∃ s,
    Reaches (AnyTurn cfg r) (.init d units) s ∧ s.held = [] ∧ e.state.held = [] ∧
      e.state.disk = s.disk ∧ ∀ b, Booked cfg r (.init d units) s b → b.given.Perm b.taken ∧
        (Removable cfg r d units → b.removed.Perm b.made)
  stocked : ∀ top items, Roomy cfg top items d units → AllConfined cfg r top d units →
    (∀ s, Reaches (AnyTurn cfg r) (.init d units) s →
      ∃ own, s.Stocked cfg top items d own ∧ own.length ≤ max 1 cfg.workers) ∧
    ∀ e, Returns cfg r cancelAt d units e → e.state.disk = d

/-- In every order, and whatever the strategies do, the workers bound what is in progress at once,
and what was taken is given back. -/
theorem units_and_workspaces_bounded : Bounded cfg r cancelAt d units where
  returned := returns_run cfg r cancelAt d units
  within := by
    intro s h
    have hs := h.within
    exact ⟨hs.running, Nat.le_trans List.countP_le_length hs.running, hs.peak,
      by rw [State.held, List.length_map]; exact hs.running⟩
  distinct := fun hfresh _ h => h.nodup_held hfresh
  booked := fun _ h => h.exists_booked
  balanced := fun _ _ h => ⟨h.balanced, h.abandoned_eq_nil⟩
  offers := fun _ _ h _ _ _ hqueue => h.offers_start_iff hqueue
  waits := by
    intro s m h hmove hlate
    rcases State.now_or_full hmove with hnow | hqueue | hfull
    · exact absurd hnow (Nat.ne_of_gt hlate)
    · exact .inl hqueue
    · exact .inr (Nat.le_antisymm h.within.running hfull)
  closed := by
    intro e h
    obtain ⟨s, hreach, hempty, hlast, hdisk⟩ := h.last
    refine ⟨s, hreach, by simp [State.held, hempty], by simp [State.held, hlast], hdisk,
      fun b hb => ?_⟩
    obtain ⟨hpermits, hspaces⟩ := hb.balanced.closed hempty
    refine ⟨hpermits, fun hremovable => ?_⟩
    rw [hb.abandoned_eq_nil hremovable, List.append_nil] at hspaces
    exact hspaces.symm
  stocked := by
    intro top items hroomy hconfined
    refine ⟨fun s h => ?_, fun e h => h.disk_eq hroomy hconfined⟩
    obtain ⟨own, hs⟩ := h.tidy hroomy hconfined
    have hlength := hs.stocked.held.length_eq
    rw [List.length_map, State.held, List.length_map] at hlength
    exact ⟨own, hs.stocked, hlength ▸ h.within.running⟩

theorem units_and_workspaces_bounded_napping :
    Bounded napSettings napping none napDisk naps ∧
      FreshNames napSettings napping napDisk naps ∧ Removable napSettings napping napDisk naps ∧
      (run napSettings napping none napDisk naps).state.peak = 2 ∧
      (run napSettings napping none napDisk naps).state.disk = napDisk := by
  have hbounded : Bounded napSettings napping none napDisk naps := units_and_workspaces_bounded
  have hfresh : FreshNames napSettings napping napDisk naps := by
    refine freshNames_of_valid fun u hu => ClassName.fault?_eq_none_iff.mp ?_
    revert u
    decide +kernel
  obtain ⟨-, hclean⟩ := hbounded.stocked _ _ roomy_napping allConfined_napping
  refine ⟨hbounded, hfresh, removable_of_confined roomy_napping allConfined_napping, ?_,
    hclean _ hbounded.returned⟩
  have hmoves : (runFor napSettings napping none 20 (.init napDisk naps)).any
      (fun e => e.fault = none ∧ e.state.peak = 2) := by decide +kernel
  obtain ⟨e, he, hpeak⟩ := (Option.any_eq_true _ _).mp hmoves
  obtain ⟨hfault, hpeak⟩ := of_decide_eq_true hpeak
  have hlater : (none : Option Nat) ≠ some 0 := nofun
  rw [run_eq_runFrom hlater slots_napSettings, runFrom_of_runFor he]
  simp only [hfault]
  exact hpeak

end FunctionJar.Execution
