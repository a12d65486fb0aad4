import FunctionJar.Proofs.Execution.Accounting

namespace FunctionJar.Execution

variable {cfg : Settings} {r : Registry} {cancelAt : Option Nat} {d : Disk}
  {units : List SourceUnit} {s t u v : State}

theorem Reaches.trans {step : State → State → Prop} (h : Reaches step s t)
    (ht : Reaches step t u) : Reaches step s u := by
  induction ht with
  | refl => exact h
  | next _ hstep ih => exact .next ih hstep

/-- What has a reason to stop the batch at a moment: a request, or its own time. If there are both,
either may be the one that is seen. -/
inductive Fires (cfg : Settings) (cancelAt : Option Nat) (now : Nat) : Cancelled → Prop
  | requested {moment : Nat} (h : cancelAt = some moment) (hle : moment ≤ now) :
      Fires cfg cancelAt now .requested
  | outOfTime {ms : Nat} (h : cfg.batchTimeout = some ms) (hle : ms ≤ now) :
      Fires cfg cancelAt now (.outOfTime ms)

theorem fires_of_stop? {now : Nat} {c : Cancelled} (h : stop? cfg cancelAt now = some c) :
    Fires cfg cancelAt now c := by
  have hrequest : ∀ moment, cancelAt.filter (· ≤ now) = some moment →
      Fires cfg cancelAt now .requested := by
    intro moment hmoment
    obtain ⟨hat, hle⟩ := Option.filter_eq_some_iff.mp hmoment
    exact .requested hat (by simpa using hle)
  have hbudget : ∀ ms, cfg.batchTimeout.filter (· ≤ now) = some ms →
      Fires cfg cancelAt now (.outOfTime ms) := by
    intro ms hms
    obtain ⟨hat, hle⟩ := Option.filter_eq_some_iff.mp hms
    exact .outOfTime hat (by simpa using hle)
  cases hmoment : cancelAt.filter (· ≤ now) with
  | none =>
      cases hms : cfg.batchTimeout.filter (· ≤ now) with
      | none => simp [stop?, hmoment, hms] at h
      | some ms =>
          obtain rfl : Cancelled.outOfTime ms = c := by simpa [stop?, hmoment, hms] using h
          exact hbudget ms hms
  | some moment =>
      cases hms : cfg.batchTimeout.filter (· ≤ now) with
      | none =>
          obtain rfl : Cancelled.requested = c := by simpa [stop?, hmoment, hms] using h
          exact hrequest moment hmoment
      | some ms =>
          simp only [stop?, hmoment, hms] at h
          split at h
          · exact Option.some.inj h ▸ hrequest moment hmoment
          · exact Option.some.inj h ▸ hbudget ms hms

/-- A stop takes effect after `s`, and in `t` nothing is in progress any more. An execution that has
nothing left to do does not wait for a stop: only one that is there at once may come before its end. -/
structure Stops (cfg : Settings) (r : Registry) (cancelAt : Option Nat) (s t : State)
    (c : Cancelled) : Prop where
  fires : ∃ ms, (s.Idle → ms = 0) ∧ Fires cfg cancelAt (s.now + ms) c
  down : Reaches (AnyTurn cfg r) s t
  empty : t.running = []

inductive Gives (cfg : Settings) (r : Registry) (cancelAt : Option Nat) (units : List SourceUnit)
    (s : State) : Ended → Prop
  | completed (h : s.Idle) : Gives cfg r cancelAt units s ⟨s.completed units, none⟩
  | stopped {t : State} {c : Cancelled} {events : List Log.Event}
      (h : Stops cfg r cancelAt s t c) :
      Gives cfg r cancelAt units s
        ⟨{ t with queue := [], ready := [], results := [], events }, some (.cancelled c)⟩

/-- All that executing units may give back, in whatever order they go on and are stopped. -/
inductive Returns (cfg : Settings) (r : Registry) (cancelAt : Option Nat) (d : Disk)
    (units : List SourceUnit) : Ended → Prop
  | beforeStart (h : cancelAt = some 0) :
      Returns cfg r cancelAt d units ⟨.init d [], some (.cancelled .beforeStart)⟩
  | crowded (h : cancelAt ≠ some 0) (hslots : maxSlots < cfg.slots) :
      Returns cfg r cancelAt d units ⟨.init d [], some .tooManySlots⟩
  | after {s : State} {e : Ended} (h : cancelAt ≠ some 0) (hslots : cfg.slots ≤ maxSlots)
      (hreach : Reaches (AnyTurn cfg r) (.init d units) s)
      (hgives : Gives cfg r cancelAt units s e) : Returns cfg r cancelAt d units e

theorem reaches_torn_down (s : State) : Reaches (AnyTurn cfg r) s
    { s with
      disk := s.running.foldl (fun d a => Workspace.discard d a.workspace) s.disk
      running := [] } := by
  obtain ⟨now, disk, queue, running, ready, results, events, peak⟩ := s
  induction running generalizing disk with
  | nil => exact .refl
  | cons a rest ih =>
      have hloss : AnyTurn cfg r ⟨now, disk, queue, a :: rest, ready, results, events, peak⟩
          ⟨now, Workspace.discard disk a.workspace, queue, rest, ready, results, events, peak⟩ :=
        .inr (@Loss.intro ⟨now, disk, queue, a :: rest, ready, results, events, peak⟩ [] a rest rfl)
      exact .head hloss (ih _)

theorem State.now_le_time (s : State) (m : Move) : s.now ≤ s.time cfg m := by
  cases m with
  | collect x rest => exact Nat.le_refl _
  | start u rest => exact Nat.le_refl _
  | advance before a after => exact Nat.le_max_left _ _

theorem not_idle_of_move? {m : Move} (h : s.move? cfg = some m) : ¬ s.Idle := by
  rintro ⟨hqueue, hrunning, hready⟩
  simp [State.move?, State.queued?, earliest, hqueue, hrunning, hready] at h

theorem runFrom_gives (r : Registry) (cancelAt : Option Nat) (units : List SourceUnit)
    (hs : s.OnTime cfg 0) : ∃ t, Reaches (AnyTurn cfg r) s t ∧
      ((t.Idle ∧ runFrom cfg r cancelAt s = ⟨t, none⟩) ∨
        ((runFrom cfg r cancelAt s).fault ≠ none ∧
          Gives cfg r cancelAt units t (runFrom cfg r cancelAt s))) := by
  fun_induction runFrom cfg r cancelAt s with
  | case1 s hm => exact ⟨s, .refl, .inl ⟨idle_of_move? hm, rfl⟩⟩
  | case2 s m hm c hc =>
      have hreach : s.now + (s.time cfg m - s.now) = s.time cfg m :=
        Nat.add_sub_cancel' (s.now_le_time m)
      have hfires : Fires cfg cancelAt (s.now + (s.time cfg m - s.now)) c := by
        rw [hreach]
        exact fires_of_stop? hc
      have hstops : Stops cfg r cancelAt s { s with
          disk := s.running.foldl (fun d a => Workspace.discard d a.workspace) s.disk
          running := [] } c :=
        ⟨⟨_, fun hidle => absurd hidle (not_idle_of_move? hm), hfires⟩, reaches_torn_down s, rfl⟩
      have hgives := @Gives.stopped cfg r cancelAt units s _ c
        (s.events ++ [aborted s.inFlight]) hstops
      exact ⟨s, .refl, .inr ⟨by simp, hgives⟩⟩
  | case3 s m hm hc ih =>
      have hturn := promptTurn_after (r := r) hs hm
      obtain ⟨t, hreach, hends⟩ := ih hturn.onTime
      exact ⟨t, .head (.inl hturn.turn) hreach, hends⟩

theorem returns_run (cfg : Settings) (r : Registry) (cancelAt : Option Nat) (d : Disk)
    (units : List SourceUnit) : Returns cfg r cancelAt d units (run cfg r cancelAt d units) := by
  by_cases hzero : cancelAt = some 0
  · rw [run, if_pos hzero]
    exact .beforeStart hzero
  · rcases Nat.lt_or_ge maxSlots cfg.slots with hcrowded | hslots
    · rw [run_crowded hzero hcrowded]
      exact .crowded hzero hcrowded
    · rw [run_eq_runFrom hzero hslots]
      obtain ⟨t, hreach, hends⟩ := runFrom_gives r cancelAt units (init_onTime d units)
      generalize runFrom cfg r cancelAt (.init d units) = e at hends
      rcases hends with ⟨hidle, rfl⟩ | ⟨hfault, hgives⟩
      · exact .after hzero hslots hreach (.completed hidle)
      · obtain ⟨f, hf⟩ := Option.ne_none_iff_exists'.mp hfault
        simp only [hf]
        exact .after hzero hslots hreach hgives

def Removable (cfg : Settings) (r : Registry) (d : Disk) (units : List SourceUnit) : Prop :=
  ∀ s, Reaches (AnyTurn cfg r) (.init d units) s →
    ∀ a ∈ s.running, ∃ d', Workspace.release s.disk a.workspace = .ok d'

def Removed (cfg : Settings) (r : Registry) (s t : State) (path : String) : Prop :=
  ∃ u v, Reaches (AnyTurn cfg r) s u ∧ AnyTurn cfg r u v ∧ Reaches (AnyTurn cfg r) v t ∧
    path ∈ u.held ∧ Workspace.release u.disk path = .ok v.disk

theorem AnyTurn.held_or_released (h : AnyTurn cfg r s t)
    (hs : ∀ a ∈ s.running, ∃ d', Workspace.release s.disk a.workspace = .ok d') :
    ∀ path ∈ s.held, path ∈ t.held ∨ Workspace.release s.disk path = .ok t.disk := by
  -- A unit that leaves gives back its own workspace and no other.
  have left : ∀ {before a after} {disk : Disk}, s.running = before ++ a :: after →
      disk = Workspace.discard s.disk a.workspace → ∀ path ∈ s.held,
        path ∈ (before ++ after).map (·.workspace) ∨ Workspace.release s.disk path = .ok disk := by
    intro before a after disk hrunning hdisk path hpath
    simp only [State.held, hrunning, List.map_append, List.map_cons, List.mem_append,
      List.mem_cons] at hpath ⊢
    rcases hpath with hpath | rfl | hpath
    · exact .inl (.inl hpath)
    · obtain ⟨d', hd'⟩ := hs a (by simp [hrunning])
      rw [hdisk, State.discard_of_release_ok hd']
      exact .inr hd'
    · exact .inl (.inr hpath)
  intro path hpath
  rcases h with h | h
  · obtain ⟨ms, hc⟩ := h.change
    cases hc with
    | collected | refused => exact .inl hpath
    | entered =>
        left
        rw [State.held, List.map_append]
        exact List.mem_append_left _ hpath
    | @continued before a after step rest _ hrunning =>
        have hrunning : s.running = before ++ a :: after := hrunning
        left
        simpa [State.held, hrunning, Active.stepped] using hpath
    | ended hrunning => exact left hrunning rfl path hpath
  · cases h with
    | intro hrunning => exact left hrunning rfl path hpath

theorem Reaches.held_or_removed (h : Reaches (AnyTurn cfg r) s t)
    (hs : Reaches (AnyTurn cfg r) (.init d units) s) (hremovable : Removable cfg r d units)
    {path : String} (hpath : path ∈ s.held) : path ∈ t.held ∨ Removed cfg r s t path := by
  induction h with
  | refl => exact .inl hpath
  | @next t v hreach hstep ih =>
      rcases ih with hheld | ⟨u, w, hu, hw, hlater, hmem, hrelease⟩
      · rcases hstep.held_or_released (hremovable t (hs.trans hreach)) path hheld with hkept | hgone
        · exact .inl hkept
        · exact .inr ⟨t, v, hreach, hstep, .refl, hheld, hgone⟩
      · exact .inr ⟨u, w, hu, hw, .next hlater hstep, hmem, hrelease⟩

theorem Reaches.removed (h : Reaches (AnyTurn cfg r) s t)
    (hs : Reaches (AnyTurn cfg r) (.init d units) s) (hremovable : Removable cfg r d units)
    (hempty : t.running = []) : ∀ path ∈ s.held, Removed cfg r s t path := by
  intro path hpath
  rcases h.held_or_removed hs hremovable hpath with hheld | hremoved
  · simp [State.held, hempty] at hheld
  · exact hremoved

def State.Still (cfg : Settings) (s : State) : Prop := ∀ ms m, ¬ (s.later ms).Offers cfg m

theorem State.Idle.still (h : s.Idle) : s.Still cfg := by
  obtain ⟨hqueue, hrunning, hready⟩ := h
  intro ms m hm
  cases hm with
  | collect h => simp [State.later, hready] at h
  | start h => simp [State.later, hqueue] at h
  | advance h => simp [State.later, hrunning] at h

theorem Gives.cut_off {e : Ended} (h : Gives cfg r cancelAt units s e) (hs : ¬ s.Idle) :
    (∃ c ms, e.fault = some (.cancelled c) ∧ Fires cfg cancelAt (s.now + ms) c) ∧
      e.state.results = [] ∧
      e.state.Still cfg := by
  cases h with
  | completed h => exact absurd h hs
  | stopped h =>
      obtain ⟨ms, -, hfires⟩ := h.fires
      exact ⟨⟨_, ms, rfl, hfires⟩, rfl, State.Idle.still ⟨rfl, h.empty, rfl⟩⟩

theorem Gives.all_collected {e : Ended} (h : Gives cfg r cancelAt units s e) (hs : s.Idle)
    (hfirst : ∀ c, ¬ Fires cfg cancelAt s.now c) : e = ⟨s.completed units, none⟩ := by
  cases h with
  | completed => rfl
  | stopped h =>
      obtain ⟨ms, hms, hfires⟩ := h.fires
      rw [hms hs, Nat.add_zero] at hfires
      exact absurd hfires (hfirst _)

theorem Turn.indices_perm (h : Turn cfg r s t) : t.indices.Perm s.indices := by
  obtain ⟨ms, hc⟩ := h.change
  exact hc.holdings_perm (fun _ _ _ _ => rfl) fun _ _ _ _ _ => rfl

theorem Reaches.indices_perm_init (h : Reaches (Turn cfg r) (.init d units) s) :
    s.indices.Perm (units.map (·.index)) := by
  induction h with
  | refl => simp [State.indices, State.holdings, State.init]
  | next _ hturn ih => exact hturn.indices_perm.trans ih

theorem completed_indices_perm (hreach : Reaches (AnyTurn cfg r) (.init d units) s) (hidle : s.Idle)
    (h : (units.map (·.index)).Nodup ∨ Reaches (Turn cfg r) (.init d units) s) :
    ((s.completed units).results.map (·.index)).Perm (units.map (·.index)) := by
  rcases h with hdistinct | hturns
  · have hends : Ends cfg r d units (s.completed units) := ⟨s, hreach, hidle, rfl⟩
    exact hends.indices_perm hdistinct
  · have hperm := hturns.indices_perm_init
    rw [State.indices, holdings_idle hidle] at hperm
    have hmissing : (s.missing units).map (·.index) = [] := by
      rw [indices_missing, List.filter_eq_nil_iff]
      intro i hi
      obtain ⟨x, hx, rfl⟩ := List.mem_map.mp (hperm.symm.subset hi)
      simpa using ⟨x, hx, rfl⟩
    rw [State.completed, List.map_append, hmissing, List.append_nil]
    exact hperm

end FunctionJar.Execution
