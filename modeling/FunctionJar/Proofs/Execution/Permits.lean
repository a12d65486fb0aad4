import FunctionJar.Proofs.Execution.Cancellation

namespace FunctionJar.Execution

structure Ledger where
  taken : List SourceUnit
  given : List SourceUnit
  made : List String
  removed : List String
  abandoned : List String

def Ledger.empty : Ledger := ⟨[], [], [], [], []⟩

def Ledger.HasPermit (cfg : Settings) (b : Ledger) : Prop :=
  b.taken.length < b.given.length + cfg.slots

variable {cfg : Settings} {r : Registry} {d : Disk}
  {units : List SourceUnit} {s t : State} {b b' : Ledger} {before after : List Active} {a : Active}

namespace State

def places (s : State) : List (SourceUnit × String) := s.running.map fun a => (a.unit, a.workspace)

theorem map_fst_places (s : State) : s.places.map (·.1) = s.running.map (·.unit) := by
  simp [places]

theorem map_snd_places (s : State) : s.places.map (·.2) = s.held := by
  simp [places, held]

theorem places_of_running (h : s.running = before ++ a :: after) :
    s.places = before.map (fun x => (x.unit, x.workspace)) ++
      (a.unit, a.workspace) :: after.map fun x => (x.unit, x.workspace) := by
  simp [places, h]

end State

/-- What is booked of a turn. A unit that gets no workspace gives its permit back at once, and one
that leaves gives it back when its workspace is gone, or cannot be removed. -/
inductive Books (cfg : Settings) (s t : State) (b : Ledger) : Ledger → Prop
  | nothing (hqueue : t.queue = s.queue) (hplaces : t.places = s.places) : Books cfg s t b b
  | refused {front u back fault} (hfree : s.running.length < cfg.slots)
      (hqueue : s.queue = front ++ u :: back) (hrest : t.queue = front ++ back)
      (hfault : Workspace.allocate s.disk cfg.root s.held u.index u.className = .error fault)
      (hplaces : t.places = s.places) :
      Books cfg s t b { b with taken := b.taken ++ [u], given := b.given ++ [u] }
  | entered {front u back path} (hfree : s.running.length < cfg.slots)
      (hqueue : s.queue = front ++ u :: back) (hrest : t.queue = front ++ back)
      (hspace : Workspace.allocate s.disk cfg.root s.held u.index u.className = .ok (path, t.disk))
      (hplaces : t.places = s.places ++ [(u, path)]) :
      Books cfg s t b { b with taken := b.taken ++ [u], made := b.made ++ [path] }
  | left {front u path back} (hqueue : t.queue = s.queue)
      (hplaces : s.places = front ++ (u, path) :: back) (hrest : t.places = front ++ back)
      (hrelease : Workspace.release s.disk path = .ok t.disk) :
      Books cfg s t b { b with removed := b.removed ++ [path], given := b.given ++ [u] }
  | stranded {front u path back fault} (hqueue : t.queue = s.queue)
      (hplaces : s.places = front ++ (u, path) :: back) (hrest : t.places = front ++ back)
      (hrelease : Workspace.release s.disk path = .error fault) :
      Books cfg s t b { b with abandoned := b.abandoned ++ [path], given := b.given ++ [u] }

/-- The books of the turns that lead from a state to another. -/
inductive Booked (cfg : Settings) (r : Registry) (s : State) : State → Ledger → Prop
  | opened : Booked cfg r s s .empty
  | next {t u : State} {b b' : Ledger} (h : Booked cfg r s t b) (hstep : AnyTurn cfg r t u)
      (hbooks : Books cfg t u b b') : Booked cfg r s u b'

theorem exists_books_left (h : s.running = before ++ a :: after) (hqueue : t.queue = s.queue)
    (hrunning : t.running = before ++ after)
    (hdisk : t.disk = Workspace.discard s.disk a.workspace) (b : Ledger) :
    ∃ b', Books cfg s t b b' := by
  have hrest : t.places = before.map (fun x => (x.unit, x.workspace)) ++
      after.map fun x => (x.unit, x.workspace) := by
    simp [State.places, hrunning]
  cases hrelease : Workspace.release s.disk a.workspace with
  | ok d =>
      rw [State.discard_of_release_ok hrelease] at hdisk
      exact ⟨_, .left hqueue (State.places_of_running h) hrest (hdisk ▸ hrelease)⟩
  | error fault => exact ⟨_, .stranded hqueue (State.places_of_running h) hrest hrelease⟩

theorem AnyTurn.exists_books (h : AnyTurn cfg r s t) (b : Ledger) : ∃ b', Books cfg s t b b' := by
  rcases h with hturn | hloss
  · obtain ⟨ms, hc⟩ := hturn.change
    cases hc with
    | collected => exact ⟨_, .nothing rfl rfl⟩
    | refused hqueue hfault hfree => exact ⟨_, .refused hfree hqueue rfl hfault rfl⟩
    | entered hqueue hfree hspace =>
        refine ⟨_, .entered hfree hqueue rfl hspace ?_⟩
        simp [State.places, Active.entering, State.later]
    | @continued before a after step rest _ hrunning =>
        have hrunning : s.running = before ++ a :: after := hrunning
        exact ⟨_, .nothing rfl (by simp [State.places, hrunning, Active.stepped])⟩
    | @ended before a after _ _ hrunning =>
        have hrunning : s.running = before ++ a :: after := hrunning
        refine exists_books_left hrunning ?_ ?_ ?_ b <;> rfl
  · cases hloss with
    | intro hrunning => refine exists_books_left hrunning ?_ ?_ ?_ b <;> rfl

theorem Reaches.exists_booked (h : Reaches (AnyTurn cfg r) s t) : ∃ b, Booked cfg r s t b := by
  induction h with
  | refl => exact ⟨_, .opened⟩
  | next _ hstep ih =>
      obtain ⟨b, hb⟩ := ih
      obtain ⟨b', hbooks⟩ := hstep.exists_books b
      exact ⟨b', .next hb hstep hbooks⟩

theorem Booked.reaches (h : Booked cfg r s t b) : Reaches (AnyTurn cfg r) s t := by
  induction h with
  | opened => exact .refl
  | next _ hstep _ ih => exact .next ih hstep

/-- Each unit waits or has taken a permit; the permits and the workspaces that are in use are those
of the units in progress. -/
structure Ledger.Balanced (units : List SourceUnit) (b : Ledger) (s : State) : Prop where
  queue : (s.queue ++ b.taken).Perm units
  permits : b.taken.Perm (b.given ++ s.running.map (·.unit))
  workspaces : b.made.Perm (b.removed ++ b.abandoned ++ s.held)

theorem balanced_init (d : Disk) (units : List SourceUnit) :
    Ledger.empty.Balanced units (.init d units) where
  queue := by simp [Ledger.empty, State.init]
  permits := by simp [Ledger.empty, State.init]
  workspaces := by simp [Ledger.empty, State.init, State.held]

theorem Books.queue (h : Books cfg s t b b') (hb : (s.queue ++ b.taken).Perm units) :
    (t.queue ++ b'.taken).Perm units := by
  classical
  refine List.Perm.trans (List.perm_iff_count.mpr fun u => ?_) hb
  cases h with
  | nothing hqueue | left hqueue | stranded hqueue => rw [hqueue]
  | refused _ hqueue hrest | entered _ hqueue hrest =>
      simp only [hqueue, hrest, List.count_append, List.count_cons, List.count_nil]
      omega

theorem Books.permits (h : Books cfg s t b b')
    (hb : b.taken.Perm (b.given ++ s.places.map (·.1))) :
    b'.taken.Perm (b'.given ++ t.places.map (·.1)) := by
  classical
  refine List.perm_iff_count.mpr fun u => ?_
  have hu := hb.count_eq u
  cases h with
  | nothing _ hplaces => rwa [hplaces]
  | refused _ _ _ _ hplaces | entered _ _ _ _ hplaces =>
      simp only [hplaces, List.map_append, List.map_cons, List.map_nil, List.count_append] at hu ⊢
      omega
  | left _ hplaces hrest | stranded _ hplaces hrest =>
      simp only [hplaces, hrest, List.map_append, List.map_cons, List.count_append,
        List.count_cons, List.count_nil] at hu ⊢
      omega

theorem Books.workspaces (h : Books cfg s t b b')
    (hb : b.made.Perm (b.removed ++ b.abandoned ++ s.places.map (·.2))) :
    b'.made.Perm (b'.removed ++ b'.abandoned ++ t.places.map (·.2)) := by
  refine List.perm_iff_count.mpr fun path => ?_
  have hpath := hb.count_eq path
  cases h with
  | nothing _ hplaces | refused _ _ _ _ hplaces => rwa [hplaces]
  | entered _ _ _ _ hplaces =>
      simp only [hplaces, List.map_append, List.map_cons, List.map_nil, List.count_append]
        at hpath ⊢
      omega
  | left _ hplaces hrest | stranded _ hplaces hrest =>
      simp only [hplaces, hrest, List.map_append, List.map_cons, List.count_append,
        List.count_cons, List.count_nil] at hpath ⊢
      omega

theorem Books.balanced (h : Books cfg s t b b') (hb : b.Balanced units s) :
    b'.Balanced units t where
  queue := h.queue hb.queue
  permits := by
    rw [← t.map_fst_places]
    exact h.permits (by rw [s.map_fst_places]; exact hb.permits)
  workspaces := by
    rw [← t.map_snd_places]
    exact h.workspaces (by rw [s.map_snd_places]; exact hb.workspaces)

theorem Booked.balanced (h : Booked cfg r (.init d units) s b) : b.Balanced units s := by
  induction h with
  | opened => exact balanced_init d units
  | next _ _ hbooks ih => exact hbooks.balanced ih

theorem Booked.abandoned_eq_nil (h : Booked cfg r (.init d units) s b)
    (hremovable : Removable cfg r d units) : b.abandoned = [] := by
  induction h with
  | opened => rfl
  | @next t u b b' h _ hbooks ih =>
      cases hbooks with
      | nothing | refused | entered | left => exact ih
      | @stranded front v path back fault _ hplaces _ hrelease =>
          have hmem : (v, path) ∈ t.places := by simp [hplaces]
          obtain ⟨a, ha, he⟩ := List.mem_map.mp hmem
          obtain ⟨d', hd'⟩ := hremovable t h.reaches a ha
          rw [(Prod.mk.inj he).2, hrelease] at hd'
          cases hd'

/-- No more units are in progress than there are permits, and none ever were. -/
structure State.Within (cfg : Settings) (s : State) : Prop where
  running : s.running.length ≤ cfg.slots
  peak : s.peak ≤ cfg.slots

theorem State.Within.left (hs : s.Within cfg) (h : s.running = before ++ a :: after) :
    (before ++ after).length ≤ cfg.slots := by
  have hrunning := hs.running
  simp only [h, List.length_append, List.length_cons] at hrunning ⊢
  omega

theorem Change.within (h : Change cfg r s t) (hs : s.Within cfg) : t.Within cfg := by
  cases h with
  | collected | refused => exact ⟨hs.running, hs.peak⟩
  | @entered before u after path d peak _ hfree _ hpeak =>
      have hone : (s.running ++ [Active.entering r u path d s.now]).length ≤ cfg.slots := by
        rw [List.length_append]
        exact hfree
      refine ⟨hone, ?_⟩
      rw [hpeak]
      exact Nat.max_le.mpr ⟨hs.peak, Nat.le_trans List.countP_le_length hone⟩
  | continued h =>
      have hrunning := hs.running
      rw [h, List.length_append] at hrunning
      refine ⟨?_, hs.peak⟩
      rw [List.length_append]
      exact hrunning
  | ended h => exact ⟨hs.left h, hs.peak⟩

theorem AnyTurn.within (hs : s.Within cfg) (h : AnyTurn cfg r s t) : t.Within cfg := by
  rcases h with h | h
  · obtain ⟨ms, hc⟩ := h.change
    exact hc.within ⟨hs.running, hs.peak⟩
  · cases h with
    | intro h => exact ⟨hs.left h, hs.peak⟩

theorem Reaches.within (h : Reaches (AnyTurn cfg r) (.init d units) s) : s.Within cfg :=
  h.invariant (P := State.Within cfg) (fun _ _ => AnyTurn.within) ⟨Nat.zero_le _, Nat.zero_le _⟩

theorem State.Offers.free {m : Move} {u : SourceUnit} {rest : List SourceUnit}
    (h : s.Offers cfg m) (hm : m = .start u rest) : s.running.length < cfg.slots := by
  cases h with
  | collect | advance => cases hm
  | start _ hfree => exact hfree

theorem Booked.offers_start_iff (h : Booked cfg r (.init d units) s b) {u : SourceUnit}
    {front back : List SourceUnit} (hqueue : s.queue = front ++ u :: back) :
    s.Offers cfg (.start u (front ++ back)) ↔ b.HasPermit cfg := by
  have hlength := h.balanced.permits.length_eq
  rw [List.length_append, List.length_map] at hlength
  rw [Ledger.HasPermit, hlength, Nat.add_lt_add_iff_left]
  exact ⟨fun hoffers => hoffers.free rfl, fun hfree => .start hqueue hfree⟩

theorem State.queued?_eq_none (h : s.queued? cfg = none) :
    s.queue = [] ∨ cfg.slots ≤ s.running.length := by
  unfold State.queued? at h
  split at h
  · split at h
    · cases h
    · next hfull => exact .inr (Nat.le_of_not_lt hfull)
  · next hqueue => exact .inl hqueue

theorem State.time_of_queued? {m : Move} (h : s.queued? cfg = some m) : s.time cfg m = s.now := by
  unfold State.queued? at h
  split at h
  · split at h
    · obtain rfl := Option.some.inj h
      rfl
    · cases h
  · cases h

theorem State.now_or_full {m : Move} (h : s.move? cfg = some m) :
    s.time cfg m = s.now ∨ s.queue = [] ∨ cfg.slots ≤ s.running.length := by
  unfold State.move? at h
  split at h
  · obtain rfl := Option.some.inj h
    exact .inl rfl
  · split at h
    · exact .inl (State.time_of_queued? h)
    · next before a after _ =>
        split at h
        · next hdue =>
            obtain rfl := Option.some.inj h
            exact .inl (Nat.max_eq_left hdue)
        · cases hqueued : s.queued? cfg with
          | none => exact .inr (State.queued?_eq_none hqueued)
          | some m' =>
              obtain rfl : m' = m := by simpa [hqueued] using h
              exact .inl (State.time_of_queued? hqueued)

end FunctionJar.Execution
