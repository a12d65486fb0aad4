import FunctionJar.Proofs.Execution.Schedule

namespace FunctionJar.Execution

variable {cfg : Settings} {r : Registry} {s t : State}

/-- Units that wait, steps of those in progress, results to be collected. -/
def State.remaining (s : State) : Nat × Nat × Nat :=
  (s.queue.length, State.work s.running, s.ready.length)

/-- Compared from the left: a unit that starts may have any number of steps before it. -/
def State.Smaller (t s : State) : Prop :=
  Prod.Lex (· < ·) (Prod.Lex (· < ·) (· < ·)) t.remaining s.remaining

theorem smaller_wf : WellFounded State.Smaller :=
  InvImage.wf State.remaining
    (Prod.lex Nat.lt_wfRel (Prod.lex Nat.lt_wfRel Nat.lt_wfRel)).wf

theorem Change.smaller (h : Change cfg r s t) : t.Smaller s := by
  cases h with
  | collected h =>
      apply Prod.Lex.right
      apply Prod.Lex.right
      simp [h]
  | refused h | entered h _ _ =>
      apply Prod.Lex.left
      simp [h]
  | continued h _ _ hrest =>
      apply Prod.Lex.right
      apply Prod.Lex.left
      simp [State.work, h, hrest, Active.stepped]
  | ended h _ _ =>
      apply Prod.Lex.right
      apply Prod.Lex.left
      simp [State.work, h]

theorem Loss.smaller (h : Loss s t) : t.Smaller s := by
  cases h with
  | intro h =>
      apply Prod.Lex.right
      apply Prod.Lex.left
      simp [State.work, h]

theorem AnyTurn.smaller (h : AnyTurn cfg r s t) : t.Smaller s := by
  rcases h with h | h
  · obtain ⟨ms, hc⟩ := h.change
    exact hc.smaller
  · exact h.smaller

/-- No schedule goes on for ever, even if units are torn down on the way. -/
theorem anyTurn_wf : WellFounded fun t s => AnyTurn cfg r s t :=
  Subrelation.wf AnyTurn.smaller smaller_wf

theorem slots_pos (cfg : Settings) : 0 < cfg.slots := Nat.le_max_left 1 cfg.workers

theorem eq_nil_of_earliest {running : List Active} (h : earliest cfg running = none) :
    running = [] := by
  cases running with
  | nil => rfl
  | cons b rest =>
      simp only [earliest] at h
      split at h
      · simp at h
      · split at h <;> simp at h

theorem earliest_due_le {running before after : List Active} {a : Active}
    (h : earliest cfg running = some (before, a, after)) : ∀ b ∈ running, a.due cfg ≤ b.due cfg := by
  induction running generalizing before a after with
  | nil => simp [earliest] at h
  | cons b rest ih =>
      simp only [earliest] at h
      split at h
      · next hrest =>
          simp only [Option.some.injEq, Prod.mk.injEq] at h
          obtain ⟨-, rfl, -⟩ := h
          simp [eq_nil_of_earliest hrest]
      · next hrest =>
          have hle := ih hrest
          split at h <;> simp only [Option.some.injEq, Prod.mk.injEq] at h <;>
            obtain ⟨-, rfl, -⟩ := h <;> intro c hc <;> rcases List.mem_cons.mp hc with rfl | hc
          · exact Nat.le_refl _
          · have := hle c hc
            omega
          · omega
          · exact hle c hc

theorem Active.le_due_stepped {now : Nat} {a : Active} (step : Step) (rest : List Step)
    (hact : a.canAct now) (hdue : now ≤ a.due cfg) : now ≤ (a.stepped now step rest).due cfg := by
  have hfree : a.isStuck = false := by
    simp only [Active.canAct, Bool.and_eq_true, Bool.not_eq_true'] at hact
    exact hact.1
  rw [Active.due, hfree, if_neg Bool.false_ne_true] at hdue
  have hwake : now ≤ (a.stepped now step rest).wake := by
    cases step <;> simp only [Active.stepped, Step.wake] <;> omega
  have hdeadline : now ≤ (a.stepped now step rest).deadline cfg := by
    change now ≤ a.deadline cfg
    omega
  rw [Active.due]
  split
  · exact hdeadline
  · exact Nat.le_min.mpr ⟨hwake, hdeadline⟩

theorem Active.le_due_entering (u : SourceUnit) (path : String) (d : Disk) (now : Nat) :
    now ≤ (Active.entering r u path d now).due cfg := by
  rw [Active.due]
  split
  · exact Nat.le_add_right _ _
  · exact Nat.le_min.mpr ⟨Nat.le_refl _, Nat.le_add_right _ _⟩

theorem Change.onTime (h : Change cfg r s t) (hs : s.OnTime cfg 0) : t.OnTime cfg 0 := by
  cases h with
  | collected | refused => exact hs
  | entered =>
      intro b hb
      rcases List.mem_append.mp hb with hb | hb
      · exact hs b hb
      · rw [List.mem_singleton.mp hb]
        exact Active.le_due_entering _ _ _ _
  | @continued before a after step rest _ h _ hact _ =>
      intro b hb
      rcases List.mem_append.mp hb with hb | hb
      · exact hs b (by simp [h, hb])
      · rcases List.mem_cons.mp hb with rfl | hb
        · exact Active.le_due_stepped step rest hact (hs a (by simp [h]))
        · exact hs b (by simp [h, hb])
  | ended h =>
      intro b hb
      refine hs b ?_
      rw [h]
      rcases List.mem_append.mp hb with hb | hb <;> simp [hb]

theorem PromptTurn.onTime (h : PromptTurn cfg r s t) : t.OnTime cfg 0 := by
  obtain ⟨ms, htime, hc⟩ := h.change
  exact hc.onTime htime

theorem init_onTime (d : Disk) (units : List SourceUnit) :
    (State.init d units).OnTime cfg 0 := by
  intro a ha
  simp [State.init] at ha

theorem promptTurn_queued {m : Move} (hs : s.OnTime cfg 0) (h : s.queued? cfg = some m) :
    PromptTurn cfg r s (s.after cfg r m) := by
  unfold State.queued? at h
  split at h
  · next u rest hq =>
      split at h
      · next hfree =>
          obtain rfl : Move.start u rest = m := by simpa using h
          exact .intro 0 hs (@State.Offers.start cfg (s.later 0) [] u rest hq hfree)
      · simp at h
  · simp at h

theorem promptTurn_earliest {before after : List Active} {a : Active} (hs : s.OnTime cfg 0)
    (h : earliest cfg s.running = some (before, a, after)) :
    PromptTurn cfg r s (s.after cfg r (.advance before a after)) := by
  have hrunning := earliest_eq h
  have hle := earliest_due_le h
  have hnow : s.now ≤ a.due cfg := hs a (by simp [hrunning])
  have hreach : s.now + (a.due cfg - s.now) = a.due cfg := by omega
  have htime : s.OnTime cfg (a.due cfg - s.now) := by
    intro b hb
    rw [hreach]
    exact hle b hb
  have hlater : s.later (a.due cfg - s.now) =
      { s with now := s.time cfg (.advance before a after) } := by
    simp only [State.later, State.time, hreach, Nat.max_eq_right hnow]
  have hturn : PromptTurn cfg r s ((s.later (a.due cfg - s.now)).make cfg r
      (.advance before a after)) :=
    .intro _ htime (.advance hrunning (Nat.le_of_eq hreach.symm))
  rw [hlater] at hturn
  exact hturn

theorem promptTurn_after {m : Move} (hs : s.OnTime cfg 0) (h : s.move? cfg = some m) :
    PromptTurn cfg r s (s.after cfg r m) := by
  unfold State.move? at h
  split at h
  · next x rest hr =>
      obtain rfl : Move.collect x rest = m := by simpa using h
      exact .intro 0 hs (@State.Offers.collect cfg (s.later 0) [] x rest hr)
  · split at h
    · exact promptTurn_queued hs h
    · next before a after he =>
        split at h
        · obtain rfl : Move.advance before a after = m := by simpa using h
          exact promptTurn_earliest hs he
        · cases hq : s.queued? cfg with
          | none =>
              obtain rfl : Move.advance before a after = m := by simpa [hq] using h
              exact promptTurn_earliest hs he
          | some m' =>
              obtain rfl : m' = m := by simpa [hq] using h
              exact promptTurn_queued hs hq

theorem idle_of_move? (h : s.move? cfg = none) : s.Idle := by
  unfold State.move? at h
  split at h
  · simp at h
  · next hready =>
      split at h
      · next hearliest =>
          have hrunning : s.running = [] := eq_nil_of_earliest hearliest
          refine ⟨?_, hrunning, hready⟩
          unfold State.queued? at h
          split at h
          · rw [if_pos (by rw [hrunning]; exact slots_pos cfg)] at h
            simp at h
          · next hq => exact hq
      · split at h <;> simp at h

theorem exists_promptTurn (hs : s.OnTime cfg 0) (h : ¬ s.Idle) : ∃ t, PromptTurn cfg r s t := by
  cases hm : s.move? cfg with
  | none => exact absurd (idle_of_move? hm) h
  | some m => exact ⟨_, promptTurn_after hs hm⟩

theorem reaches_runFrom {cancelAt : Option Nat} (hs : s.OnTime cfg 0)
    (h : (runFrom cfg r cancelAt s).fault = none) :
    Reaches (PromptTurn cfg r) s (runFrom cfg r cancelAt s).state ∧
      (runFrom cfg r cancelAt s).state.Idle := by
  fun_induction runFrom cfg r cancelAt s with
  | case1 s hm => exact ⟨.refl, idle_of_move? hm⟩
  | case2 s m hm c hc => simp at h
  | case3 s m hm hc ih =>
      have hturn := promptTurn_after (r := r) hs hm
      obtain ⟨hreach, hidle⟩ := ih hturn.onTime h
      exact ⟨.head hturn hreach, hidle⟩

theorem runFrom_fault (hbatch : cfg.batchTimeout = none) (s : State) :
    (runFrom cfg r none s).fault = none := by
  fun_induction runFrom cfg r none s with
  | case1 s hm => rfl
  | case2 s m hm c hc => simp [stop?, hbatch] at hc
  | case3 s m hm hc ih => exact ih

theorem run_eq_runFrom {cancelAt : Option Nat} {d : Disk} {units : List SourceUnit}
    (hlater : cancelAt ≠ some 0) (hslots : cfg.slots ≤ maxSlots) :
    run cfg r cancelAt d units = match (runFrom cfg r cancelAt (.init d units)).fault with
      | some _ => runFrom cfg r cancelAt (.init d units)
      | none => { runFrom cfg r cancelAt (.init d units) with
          state := (runFrom cfg r cancelAt (.init d units)).state.completed units } :=
  (if_neg hlater).trans (if_neg (Nat.not_lt.mpr hslots))

/-- With more slots than can be counted nothing is executed, unless that is not even tried. -/
theorem run_crowded {cancelAt : Option Nat} {d : Disk} {units : List SourceUnit}
    (hlater : cancelAt ≠ some 0) (hslots : maxSlots < cfg.slots) :
    run cfg r cancelAt d units = ⟨.init d [], some .tooManySlots⟩ := by
  rw [run, if_neg hlater, if_pos hslots]

theorem fault_run {cancelAt : Option Nat} {d : Disk} {units : List SourceUnit}
    (hlater : cancelAt ≠ some 0) (hslots : cfg.slots ≤ maxSlots) :
    (run cfg r cancelAt d units).fault = (runFrom cfg r cancelAt (.init d units)).fault := by
  rw [run_eq_runFrom hlater hslots]
  cases hf : (runFrom cfg r cancelAt (.init d units)).fault with
  | none => exact hf
  | some f => exact hf

theorem run_cases {cancelAt : Option Nat} {d : Disk} {units : List SourceUnit}
    (h : (run cfg r cancelAt d units).fault = none) :
    ∃ s, Reaches (PromptTurn cfg r) (.init d units) s ∧ s.Idle ∧
      (run cfg r cancelAt d units).state = s.completed units := by
  unfold run at h ⊢
  split
  · next hzero => simp [hzero] at h
  · next hlater =>
      rw [if_neg hlater] at h
      split
      · next hcrowded => simp [hcrowded] at h
      · next hslots =>
          rw [if_neg hslots] at h
          cases hf : (runFrom cfg r cancelAt (.init d units)).fault with
          | some f => simp [hf] at h
          | none =>
              obtain ⟨hreach, hidle⟩ := reaches_runFrom (init_onTime d units) hf
              exact ⟨_, hreach, hidle, by simp [hf]⟩

theorem ends_run {cancelAt : Option Nat} {d : Disk} {units : List SourceUnit}
    (h : (run cfg r cancelAt d units).fault = none) :
    Ends cfg r d units (run cfg r cancelAt d units).state := by
  obtain ⟨s, hreach, hidle, he⟩ := run_cases h
  exact ⟨s, hreach.mono fun hturn => .inl hturn.turn, hidle, he⟩

def runFor (cfg : Settings) (r : Registry) (cancelAt : Option Nat) : Nat → State → Option Ended
  | 0, _ => none
  | n + 1, s =>
    match s.move? cfg with
    | none => some ⟨s, none⟩
    | some m =>
      match stop? cfg cancelAt (s.time cfg m) with
      | some c =>
        some ⟨{ s.abort with events := s.events ++ [aborted s.inFlight] }, some (.cancelled c)⟩
      | none => runFor cfg r cancelAt n (s.after cfg r m)

theorem runFrom_of_runFor {cancelAt : Option Nat} {n : Nat} {e : Ended}
    (h : runFor cfg r cancelAt n s = some e) : runFrom cfg r cancelAt s = e := by
  induction n generalizing s with
  | zero => simp [runFor] at h
  | succ n ih =>
      rw [runFor] at h
      rw [runFrom]
      cases hm : s.move? cfg with
      | none => simpa [hm] using h
      | some m =>
          cases hstop : stop? cfg cancelAt (s.time cfg m) with
          | some c => simpa [hm, hstop] using h
          | none =>
              rw [hm] at h
              simp only [hstop] at h
              simpa [hm, hstop] using ih h

theorem run_of_runFor {n : Nat} {d : Disk} {units : List SourceUnit} {xs : List UnitResult}
    {P : Disk → Bool} (hslots : cfg.slots ≤ maxSlots)
    (hall : units.filter (fun u => !xs.any (·.index == u.index)) = [])
    (h : (runFor cfg r none n (.init d units)).any fun e =>
      e.fault = none ∧ e.state.results = xs ∧ P e.state.disk) :
    ∃ e, run cfg r none d units = ⟨e, none⟩ ∧ e.results = xs ∧ P e.disk := by
  obtain ⟨e, he, hcheck⟩ := (Option.any_eq_true _ _).mp h
  obtain ⟨hfault, hresults, hdisk⟩ := of_decide_eq_true hcheck
  have hmissing : e.state.missing units = [] := by
    rw [State.missing, hresults, hall]
    rfl
  have hlater : (none : Option Nat) ≠ some 0 := nofun
  refine ⟨e.state.completed units, ?_, ?_, hdisk⟩
  · rw [run_eq_runFrom hlater hslots, runFrom_of_runFor he]
    simp only [hfault]
  · simp [State.completed, hmissing, hresults]

end FunctionJar.Execution
