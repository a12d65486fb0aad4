import FunctionJar.Proofs.Execution.Progress

namespace FunctionJar.Execution

variable {γ : Type} {cfg : Settings} {r : Registry} {s t : State} {units : List SourceUnit}

def State.holdings (f : SourceUnit → γ) (g : UnitResult → γ) (s : State) : List γ :=
  s.queue.map f ++ s.running.map (fun a => f a.unit) ++ s.ready.map g ++ s.results.map g

theorem Change.holdings_perm {f : SourceUnit → γ} {g : UnitResult → γ} (h : Change cfg r s t)
    (hrefused : ∀ u ∈ s.queue, ∀ fault,
      Workspace.allocate s.disk cfg.root s.held u.index u.className = .error fault →
        g ⟨u.index, .failed ⟨u.className, fault.failure⟩, 0⟩ = f u)
    (hended : ∀ a ∈ s.running, a.due cfg ≤ s.now → ∀ o, a.Concludes cfg s.now s.disk o →
      g ⟨a.unit.index, o, s.now - a.started⟩ = f a.unit) :
    (t.holdings f g).Perm (s.holdings f g) := by
  classical
  rw [List.perm_iff_count]
  intro c
  cases h with
  | collected h =>
      simp only [State.holdings, h, List.map_append, List.map_cons, List.map_nil,
        List.count_append, List.count_cons, List.count_nil]
      omega
  | @refused before u after fault h hfault =>
      simp only [State.holdings, h, List.map_append, List.map_cons, List.map_nil,
        List.count_append, List.count_cons, List.count_nil, hrefused u (by simp [h]) fault hfault]
      omega
  | entered h _ _ =>
      simp only [State.holdings, h, Active.entering, List.map_append, List.map_cons, List.map_nil,
        List.count_append, List.count_cons, List.count_nil]
      omega
  | continued h _ _ _ =>
      simp only [State.holdings, h, Active.stepped, List.map_append, List.map_cons]
  | @ended before a after o _ h hdue ho =>
      simp only [State.holdings, h, List.map_append, List.map_cons, List.map_nil,
        List.count_append, List.count_cons, List.count_nil, hended a (by simp [h]) hdue o ho]
      omega

theorem holdings_idle {f : SourceUnit → γ} {g : UnitResult → γ} (h : s.Idle) :
    s.holdings f g = s.results.map g := by
  obtain ⟨hq, hr, hd⟩ := h
  simp [State.holdings, hq, hr, hd]

def State.indices (s : State) : List Nat := s.holdings (·.index) (·.index)

theorem AnyTurn.indices_perm (h : AnyTurn cfg r s t) :
    ∃ gone, (t.indices ++ gone).Perm s.indices := by
  rcases h with h | h
  · obtain ⟨ms, hc⟩ := h.change
    refine ⟨[], ?_⟩
    rw [List.append_nil]
    exact hc.holdings_perm (fun _ _ _ _ => rfl) (fun _ _ _ _ _ => rfl)
  · cases h with
    | @intro before a after h =>
        refine ⟨[a.unit.index], ?_⟩
        rw [List.perm_iff_count]
        intro c
        simp only [State.indices, State.holdings, h, List.map_append, List.map_cons,
          List.count_append, List.count_cons, List.count_nil]
        omega

theorem Reaches.indices_perm (h : Reaches (AnyTurn cfg r) s t) :
    ∃ gone, (t.indices ++ gone).Perm s.indices := by
  induction h with
  | refl => exact ⟨[], by simp⟩
  | next _ hstep ih =>
      obtain ⟨gone, hperm⟩ := ih
      obtain ⟨more, hmore⟩ := AnyTurn.indices_perm hstep
      refine ⟨more ++ gone, ?_⟩
      rw [← List.append_assoc]
      exact (hmore.append_right gone).trans hperm

theorem indices_missing (units : List SourceUnit) (s : State) :
    (s.missing units).map (·.index) =
      (units.map (·.index)).filter fun i => !s.results.any (·.index == i) := by
  simp [State.missing, List.filter_map, Function.comp_def]

theorem Ends.indices_perm {d : Disk} {e : State} (h : Ends cfg r d units e)
    (hunits : (units.map (·.index)).Nodup) :
    (e.results.map (·.index)).Perm (units.map (·.index)) := by
  obtain ⟨s, hreach, hidle, rfl⟩ := h
  obtain ⟨gone, hperm⟩ := hreach.indices_perm
  have hinit : (State.init d units).indices = units.map (·.index) := by
    simp [State.indices, State.holdings, State.init]
  rw [hinit, State.indices, holdings_idle hidle] at hperm
  have hnodup : (s.results.map (·.index)).Nodup :=
    (List.nodup_append.mp (hperm.nodup_iff.mpr hunits)).1
  simp only [State.completed, List.map_append, indices_missing]
  rw [List.perm_ext_iff_of_nodup _ hunits]
  · intro i
    have hsub : i ∈ s.results.map (·.index) → i ∈ units.map (·.index) := fun hi =>
      hperm.subset (List.mem_append_left _ hi)
    simp only [List.mem_append, List.mem_filter, Bool.not_eq_true', List.any_eq_false,
      beq_iff_eq]
    constructor
    · rintro (hi | hi)
      · exact hsub hi
      · exact hi.1
    · intro hi
      by_cases hin : i ∈ s.results.map (·.index)
      · exact .inl hin
      · refine .inr ⟨hi, fun x hx he => hin ?_⟩
        exact List.mem_map.mpr ⟨x, hx, he⟩
  · rw [List.nodup_append]
    refine ⟨hnodup, hunits.filter _, ?_⟩
    intro i hi j hj he
    obtain ⟨x, hx, hxi⟩ := List.mem_map.mp hi
    have hnone := (List.mem_filter.mp hj).2
    simp only [Bool.not_eq_true', List.any_eq_false, beq_iff_eq] at hnone
    exact hnone x hx (hxi.trans he)

/-- An outcome that a unit can have: what its strategy has compiled in some workspace on some disk,
or a failure of its own. -/
inductive Yields (r : Registry) (u : SourceUnit) : Outcome → Prop
  | compiled {c path d} (h : (r.dispatch u path d).finish = .compiled c) : Yields r u (.compiled c)
  | failed (f : Failure) : Yields r u (.failed ⟨u.className, f⟩)

/-- The units in progress are units of the batch and end as their strategies say; the results are
those of units of the batch. -/
structure Sourced (r : Registry) (units : List SourceUnit) (s : State) : Prop where
  queue : ∀ u ∈ s.queue, u ∈ units
  running : ∀ a ∈ s.running, a.unit ∈ units ∧
    ∃ path d, a.finish = (r.dispatch a.unit path d).finish
  results : ∀ x ∈ s.ready ++ s.results, ∃ u ∈ units, x.index = u.index ∧ Yields r u x.outcome

theorem Active.Concludes.yields {now : Nat} {d : Disk} {a : Active} {o : Outcome}
    (h : a.Concludes cfg now d o) (ha : ∃ path d, a.finish = (r.dispatch a.unit path d).finish) :
    Yields r a.unit o := by
  obtain ⟨path, d, ha⟩ := ha
  cases h with
  | compiled _ _ hfinish => exact .compiled (ha ▸ hfinish)
  | unreleased | failed | panicked | expired => exact .failed _

theorem Change.sourced (h : Change cfg r s t) (hs : Sourced r units s) : Sourced r units t := by
  cases h with
  | collected h =>
      refine ⟨hs.queue, hs.running, fun x hx => hs.results x ?_⟩
      simp only [h, List.mem_append, List.mem_cons] at hx ⊢
      grind
  | @refused before u after fault h _ =>
      refine ⟨fun v hv => hs.queue v ?_, hs.running, fun x hx => ?_⟩
      · simp only [h, List.mem_append, List.mem_cons] at hv ⊢
        grind
      · by_cases hold : x ∈ s.ready ++ s.results
        · exact hs.results x hold
        · have hnew : x = ⟨u.index, .failed ⟨u.className, fault.failure⟩, 0⟩ := by
            simp only [List.mem_append, List.mem_singleton] at hx hold
            grind
          subst hnew
          exact ⟨u, hs.queue u (by simp [h]), rfl, .failed _⟩
  | @entered before u after path d _ h _ _ =>
      refine ⟨fun v hv => hs.queue v ?_, fun b hb => ?_, hs.results⟩
      · simp only [h, List.mem_append, List.mem_cons] at hv ⊢
        grind
      · rcases List.mem_append.mp hb with hb | hb
        · exact hs.running b hb
        · rw [List.mem_singleton.mp hb]
          exact ⟨hs.queue u (by simp [h]), path, d, rfl⟩
  | @continued before a after step rest _ h _ _ _ =>
      refine ⟨hs.queue, fun b hb => ?_, hs.results⟩
      rcases List.mem_append.mp hb with hb | hb
      · exact hs.running b (by simp [h, hb])
      · rcases List.mem_cons.mp hb with rfl | hb
        · exact hs.running a (by simp [h])
        · exact hs.running b (by simp [h, hb])
  | @ended before a after o _ h _ ho =>
      refine ⟨hs.queue, fun b hb => hs.running b ?_, fun x hx => ?_⟩
      · simp only [h, List.mem_append, List.mem_cons] at hb ⊢
        grind
      · by_cases hold : x ∈ s.ready ++ s.results
        · exact hs.results x hold
        · have hnew : x = ⟨a.unit.index, o, s.now - a.started⟩ := by
            simp only [List.mem_append, List.mem_singleton] at hx hold
            grind
          subst hnew
          obtain ⟨hunit, hfinish⟩ := hs.running a (by simp [h])
          exact ⟨a.unit, hunit, rfl, ho.yields hfinish⟩

theorem AnyTurn.sourced (hs : Sourced r units s) (h : AnyTurn cfg r s t) : Sourced r units t := by
  rcases h with h | h
  · obtain ⟨ms, hc⟩ := h.change
    exact hc.sourced ⟨hs.queue, hs.running, hs.results⟩
  · cases h with
    | intro h =>
        refine ⟨hs.queue, fun b hb => hs.running b ?_, hs.results⟩
        simp only [h, List.mem_append, List.mem_cons] at hb ⊢
        grind

theorem Ends.yields {d : Disk} {e : State} (h : Ends cfg r d units e) :
    ∀ x ∈ e.results, ∃ u ∈ units, x.index = u.index ∧ Yields r u x.outcome := by
  obtain ⟨s, hreach, -, rfl⟩ := h
  have hinit : Sourced r units (.init d units) :=
    ⟨fun u hu => hu, by simp [State.init], by simp [State.init]⟩
  have hs := hreach.invariant (P := Sourced r units) (fun _ _ => AnyTurn.sourced) hinit
  intro x hx
  simp only [State.completed, List.mem_append] at hx
  rcases hx with hx | hx
  · exact hs.results x (List.mem_append_right _ hx)
  · simp only [State.missing, List.mem_map, List.mem_filter] at hx
    obtain ⟨u, ⟨hu, -⟩, rfl⟩ := hx
    exact ⟨u, hu, rfl, .failed _⟩

end FunctionJar.Execution
