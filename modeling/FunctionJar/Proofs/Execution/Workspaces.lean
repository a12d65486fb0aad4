import FunctionJar.Proofs.Execution.Schedule
import FunctionJar.Proofs.Workspace

namespace FunctionJar.Execution

open Workspace (Ground Fits StaysIn stem)

variable {cfg : Settings} {r : Registry} {s t : State} {d : Disk} {units : List SourceUnit}
  {top : List String} {room : Nat} {items : List (String × Node)}

/-- Every unit that waits can get a workspace, and every unit in progress can give its own back. -/
structure State.Usable (cfg : Settings) (s : State) : Prop where
  allocates : ∀ u ∈ s.queue, ∃ place,
    Workspace.allocate s.disk cfg.root s.held u.index u.className = .ok place
  releases : ∀ a ∈ s.running, ∃ d, Workspace.release s.disk a.workspace = .ok d

/-- The root of the workspaces can be used at all times, in whatever order the units go on. -/
def UsableRoot (cfg : Settings) (r : Registry) (d : Disk) (units : List SourceUnit) : Prop :=
  ∀ s, Reaches (PromptTurn cfg r) (.init d units) s → s.Usable cfg

def Active.Housed (root : String) (items : List (String × Node)) (a : Active) : Prop :=
  ∃ name files, Fits root name ∧ a.workspace = Path.join root name ∧
    items.lookup name = some (.folder files)

def State.Confined (cfg : Settings) (top : List String) (s : State) : Prop :=
  ∀ a ∈ s.running, ∀ e rest, a.rest = .edit e :: rest → ∀ name,
    a.workspace = Path.join cfg.root name → StaysIn cfg.root top name e s.disk

/-- The root and its items when each unit in progress has a folder of its own, and names are left
for all that wait. -/
structure State.Kept (cfg : Settings) (top : List String) (room : Nat)
    (items : List (String × Node)) (s : State) : Prop where
  ground : Ground cfg.root top items s.disk
  housed : ∀ a ∈ s.running, a.Housed cfg.root items
  distinct : s.held.Nodup
  names : ∀ u ∈ s.queue, ∀ n ≤ room, Fits cfg.root (stem u.index u.className ++ unique n)
  space : items.length + s.running.length + 2 * s.queue.length ≤ room

theorem State.Kept.allocate (hs : s.Kept cfg top room items) {u : SourceUnit} (hu : u ∈ s.queue) :
    ∃ name, Fits cfg.root name ∧ items.lookup name = none ∧
      Workspace.allocate s.disk cfg.root s.held u.index u.className =
        .ok (Path.join cfg.root name, s.disk.filled top (items ++ [(name, .empty)])) := by
  refine hs.ground.allocate fun n hn => hs.names u hu n ?_
  have hspace := hs.space
  rw [State.held, List.length_map] at hn
  omega

theorem State.Kept.usable (hs : s.Kept cfg top room items) : s.Usable cfg where
  allocates := by
    intro u hu
    obtain ⟨name, -, -, hplace⟩ := hs.allocate hu
    exact ⟨_, hplace⟩
  releases := by
    intro a ha
    obtain ⟨name, files, hname, hpath, hfolder⟩ := hs.housed a ha
    exact ⟨_, hpath ▸ hs.ground.release hname hfolder⟩

theorem Active.Housed.append {a : Active} (h : a.Housed cfg.root items)
    (more : List (String × Node)) : a.Housed cfg.root (items ++ more) := by
  obtain ⟨name, files, hname, hpath, hfolder⟩ := h
  exact ⟨name, files, hname, hpath, by rw [List.lookup_append, hfolder]; rfl⟩

theorem Active.Housed.putItem {a : Active} (h : a.Housed cfg.root items) (name : String)
    (files : List (String × Node)) : a.Housed cfg.root (Node.putItem name (.folder files) items) := by
  obtain ⟨own, files', hname, hpath, hfolder⟩ := h
  by_cases hown : own = name
  · exact ⟨own, files, hname, hpath, by rw [Node.lookup_putItem, if_pos hown]⟩
  · exact ⟨own, files', hname, hpath, by rw [Node.lookup_putItem, if_neg hown, hfolder]⟩

theorem Active.Housed.filter {a : Active} (h : a.Housed cfg.root items) {name : String}
    (hne : a.workspace ≠ Path.join cfg.root name) :
    a.Housed cfg.root (items.filter fun item => item.1 != name) := by
  obtain ⟨own, files, hname, hpath, hfolder⟩ := h
  have hown : own ≠ name := by
    rintro rfl
    exact hne hpath
  exact ⟨own, files, hname, hpath, by rw [Node.lookup_filter_ne hown, hfolder]⟩

theorem State.Kept.entered (hs : s.Kept cfg top room items) {before after : List SourceUnit}
    {u : SourceUnit} {path : String} (h : s.queue = before ++ u :: after)
    (hspace : Workspace.allocate s.disk cfg.root s.held u.index u.className = .ok (path, d))
    (peak : Nat) :
    ∃ name, Fits cfg.root name ∧ path = Path.join cfg.root name ∧ items.lookup name = none ∧
      d = s.disk.filled top (items ++ [(name, .empty)]) ∧
      State.Kept cfg top room (items ++ [(name, .empty)]) { s with
        disk := d
        queue := before ++ after
        running := s.running ++ [.entering r u path d s.now]
        peak } := by
  obtain ⟨name, hname, hfree, hplace⟩ := hs.allocate (u := u) (by simp [h])
  obtain ⟨rfl, rfl⟩ := Prod.mk.inj (Except.ok.inj (hplace.symm.trans hspace))
  refine ⟨name, hname, rfl, hfree, rfl, hs.ground.filled _, ?_, ?_, ?_, ?_⟩
  · intro b hb
    rcases List.mem_append.mp hb with hb | hb
    · exact (hs.housed b hb).append _
    · rw [List.mem_singleton.mp hb]
      refine ⟨name, [], hname, rfl, ?_⟩
      rw [List.lookup_append, hfree]
      simp [Node.empty]
  · simp only [State.held, List.map_append, List.map_cons, List.map_nil]
    refine List.nodup_append.mpr ⟨hs.distinct, List.pairwise_singleton _ _, ?_⟩
    intro held hheld new hnew he
    obtain ⟨b, hb, rfl⟩ := List.mem_map.mp hheld
    obtain rfl := List.mem_singleton.mp hnew
    -- The name was free, and the name of a unit in progress is not.
    obtain ⟨own, files, hown, hpath, hfolder⟩ := hs.housed b hb
    have hsame := hs.ground.spells.join_inj hown.plain hname.plain (hpath.symm.trans he)
    simp [← hsame, hfolder] at hfree
  · intro v hv
    refine hs.names v ?_
    rw [h]
    rcases List.mem_append.mp hv with hv | hv <;> simp [hv]
  · have hroom := hs.space
    rw [h] at hroom
    simp only [List.length_append, List.length_cons, List.length_nil] at hroom ⊢
    omega

theorem State.Kept.disk_stepped (hs : s.Kept cfg top room items)
    (hconfined : s.Confined cfg top) {a : Active} {step : Step} {rest : List Step} {name : String}
    {files : List (String × Node)} (ha : a ∈ s.running) (hrest : a.rest = step :: rest)
    (hpath : a.workspace = Path.join cfg.root name)
    (hfolder : items.lookup name = some (.folder files)) : ∃ files',
      s.disk.stepped step = s.disk.filled top (Node.putItem name (.folder files') items) := by
  have hstill : s.disk = s.disk.filled top (Node.putItem name (.folder files) items) := by
    rw [Node.putItem_of_lookup hfolder, hs.ground.filled_self]
  cases step with
  | edit e => exact hconfined a ha e rest hrest name hpath items files hs.ground hfolder
  | sleep ms => exact ⟨files, hstill⟩
  | note event => exact ⟨files, hstill⟩

theorem State.Kept.continued (hs : s.Kept cfg top room items) (hconfined : s.Confined cfg top)
    {before after : List Active} {a : Active} {step : Step} {rest : List Step}
    (h : s.running = before ++ a :: after) (hrest : a.rest = step :: rest)
    (events : List Log.Event) :
    ∃ name files files', Fits cfg.root name ∧ a.workspace = Path.join cfg.root name ∧
      items.lookup name = some (.folder files) ∧
      s.disk.stepped step = s.disk.filled top (Node.putItem name (.folder files') items) ∧
      State.Kept cfg top room (Node.putItem name (.folder files') items) { s with
        disk := s.disk.stepped step
        running := before ++ a.stepped s.now step rest :: after
        events } := by
  have ha : a ∈ s.running := by simp [h]
  obtain ⟨name, files, hname, hpath, hfolder⟩ := hs.housed a ha
  obtain ⟨files', hdisk⟩ := hs.disk_stepped hconfined ha hrest hpath hfolder
  refine ⟨name, files, files', hname, hpath, hfolder, hdisk, ?_, ?_, ?_, hs.names, ?_⟩
  · rw [hdisk]
    exact hs.ground.filled _
  · intro b hb
    obtain ⟨c, hc, hsame⟩ : ∃ c ∈ s.running, c.workspace = b.workspace := by
      rcases List.mem_append.mp hb with hb | hb
      · exact ⟨b, by simp [h, hb], rfl⟩
      · rcases List.mem_cons.mp hb with rfl | hb
        · exact ⟨a, ha, rfl⟩
        · exact ⟨b, by simp [h, hb], rfl⟩
    have hhoused := (hs.housed c hc).putItem name files'
    rwa [Active.Housed, hsame] at hhoused
  · simpa [State.held, h, Active.stepped] using hs.distinct
  · have hroom := hs.space
    rw [Node.length_putItem hfolder]
    simpa [h] using hroom

theorem State.Kept.left (hs : s.Kept cfg top room items) {before after : List Active} {a : Active}
    (h : s.running = before ++ a :: after) (ready : List UnitResult) (events : List Log.Event) :
    ∃ name files, Fits cfg.root name ∧ a.workspace = Path.join cfg.root name ∧
      items.lookup name = some (.folder files) ∧
      Workspace.discard s.disk a.workspace =
        s.disk.filled top (items.filter fun item => item.1 != name) ∧
      State.Kept cfg top room (items.filter fun item => item.1 != name) { s with
        disk := Workspace.discard s.disk a.workspace
        running := before ++ after
        ready
        events } := by
  obtain ⟨name, files, hname, hpath, hfolder⟩ := hs.housed a (by simp [h])
  have hrelease := hs.ground.release hname hfolder
  rw [← hpath] at hrelease
  have hheld := hs.distinct
  simp only [State.held, h, List.map_append, List.map_cons] at hheld
  obtain ⟨hnew, hrest⟩ := List.nodup_cons.mp (List.perm_middle.nodup_iff.mp hheld)
  rw [← List.map_append] at hnew hrest
  rw [State.discard_of_release_ok hrelease]
  refine ⟨name, files, hname, hpath, hfolder, rfl, hs.ground.filled _, ?_, hrest, hs.names, ?_⟩
  · intro b hb
    have hbs : b ∈ s.running := by
      rw [h]
      rcases List.mem_append.mp hb with hb | hb <;> simp [hb]
    refine (hs.housed b hbs).filter fun he => hnew ?_
    rw [hpath, ← he]
    exact List.mem_map_of_mem hb
  · have hroom := hs.space
    have hfilter := List.length_filter_le (fun item => item.1 != name) items
    rw [h] at hroom
    simp only [List.length_append, List.length_cons] at hroom ⊢
    omega

theorem Change.kept (h : Change cfg r s t) (hconfined : s.Confined cfg top)
    (hs : s.Kept cfg top room items) : ∃ items', t.Kept cfg top room items' := by
  cases h with
  | collected h => exact ⟨items, hs.ground, hs.housed, hs.distinct, hs.names, hs.space⟩
  | @refused before u after fault h hfault =>
      obtain ⟨place, hplace⟩ := hs.usable.allocates u (by simp [h])
      simp [hplace] at hfault
  | entered h _ hspace =>
      obtain ⟨_, _, _, _, _, hkept⟩ := hs.entered h hspace _
      exact ⟨_, hkept⟩
  | continued h _ _ hrest =>
      obtain ⟨_, _, _, _, _, _, _, hkept⟩ := hs.continued hconfined h hrest _
      exact ⟨_, hkept⟩
  | ended h =>
      obtain ⟨_, _, _, _, _, _, hkept⟩ := hs.left h _ _
      exact ⟨_, hkept⟩

theorem State.Kept.later (hs : s.Kept cfg top room items) (ms : Nat) :
    (s.later ms).Kept cfg top room items :=
  ⟨hs.ground, hs.housed, hs.distinct, hs.names, hs.space⟩

theorem kept_init (hground : Ground cfg.root top items d)
    (hnames : ∀ u ∈ units, ∀ n ≤ items.length + 2 * units.length,
      Fits cfg.root (stem u.index u.className ++ unique n)) :
    (State.init d units).Kept cfg top (items.length + 2 * units.length) items where
  ground := hground
  housed := by simp [State.init]
  distinct := .nil
  names := hnames
  space := by simp [State.init]

theorem usableRoot_of_confined (hground : Ground cfg.root top items d)
    (hnames : ∀ u ∈ units, ∀ n ≤ items.length + 2 * units.length,
      Fits cfg.root (stem u.index u.className ++ unique n))
    (hconfined : ∀ s, Reaches (PromptTurn cfg r) (.init d units) s → s.Confined cfg top) :
    UsableRoot cfg r d units := by
  intro s h
  have hkept : ∃ items', s.Kept cfg top (items.length + 2 * units.length) items' := by
    induction h with
    | refl => exact ⟨items, kept_init hground hnames⟩
    | @next s t hreach hturn ih =>
        obtain ⟨items', hs⟩ := ih
        obtain ⟨ms, -, hc⟩ := hturn.change
        exact hc.kept (s := s.later ms) (hconfined s hreach) (hs.later ms)
  obtain ⟨items', hs⟩ := hkept
  exact hs.usable

def Quiet (r : Registry) : Prop := ∀ u path d e, Step.edit e ∉ (r.dispatch u path d).steps

def State.Quiet (s : State) : Prop := ∀ a ∈ s.running, ∀ e, Step.edit e ∉ a.rest

theorem State.Quiet.confined (hs : s.Quiet) : s.Confined cfg top := by
  intro a ha e rest hrest
  exact absurd (by rw [hrest]; exact List.mem_cons_self) (hs a ha e)

theorem State.Quiet.left (hs : s.Quiet) {before after : List Active} {a b : Active}
    (h : s.running = before ++ a :: after) (hb : b ∈ before ++ after) :
    ∀ e, Step.edit e ∉ b.rest := by
  refine hs b ?_
  rw [h]
  rcases List.mem_append.mp hb with hb | hb <;> simp [hb]

theorem Change.quiet (h : Change cfg r s t) (hquiet : Quiet r) (hs : s.Quiet) : t.Quiet := by
  cases h with
  | collected | refused => exact hs
  | entered =>
      intro b hb
      rcases List.mem_append.mp hb with hb | hb
      · exact hs b hb
      · rw [List.mem_singleton.mp hb]
        exact hquiet _ _ _
  | @continued before a after step rest _ h _ _ hrest =>
      intro b hb e he
      rcases List.mem_append.mp hb with hb | hb
      · exact hs b (by simp [h, hb]) e he
      · rcases List.mem_cons.mp hb with rfl | hb
        · exact hs a (by simp [h]) e (by rw [hrest]; exact List.mem_cons_of_mem _ he)
        · exact hs b (by simp [h, hb]) e he
  | ended h => exact fun b hb => hs.left h hb

theorem confined_of_quiet (hquiet : Quiet r) (h : Reaches (PromptTurn cfg r) (.init d units) s) :
    s.Confined cfg top := by
  have hs : s.Quiet := by
    refine h.invariant (P := State.Quiet) ?_ (by simp [State.Quiet, State.init])
    intro s t hs hturn
    obtain ⟨ms, -, hc⟩ := hturn.change
    exact hc.quiet (s := s.later ms) hquiet hs
  exact hs.confined

end FunctionJar.Execution
