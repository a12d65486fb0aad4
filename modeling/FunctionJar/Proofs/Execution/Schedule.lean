import FunctionJar.Execution.Run

namespace FunctionJar.Execution

namespace State

def later (s : State) (ms : Nat) : State := { s with now := s.now + ms }

/-- The moves open to a state, wherever in its lists they are found. -/
inductive Offers (cfg : Settings) (s : State) : Move → Prop
  | collect {before x after} (h : s.ready = before ++ x :: after) :
      Offers cfg s (.collect x (before ++ after))
  | start {before u after} (h : s.queue = before ++ u :: after)
      (hfree : s.running.length < cfg.slots) : Offers cfg s (.start u (before ++ after))
  | advance {before a after} (h : s.running = before ++ a :: after) (hdue : a.due cfg ≤ s.now) :
      Offers cfg s (.advance before a after)

def make (cfg : Settings) (r : Registry) (s : State) : Move → State
  | .collect x rest => s.collect x rest
  | .start u rest => s.start cfg r u rest
  | .advance before a after => s.advance cfg before a after

/-- No unit in progress has been kept waiting when `ms` have passed. -/
def OnTime (cfg : Settings) (s : State) (ms : Nat) : Prop :=
  ∀ a ∈ s.running, s.now + ms ≤ a.due cfg

def Idle (s : State) : Prop := s.queue = [] ∧ s.running = [] ∧ s.ready = []

end State

inductive Turn (cfg : Settings) (r : Registry) (s : State) : State → Prop
  | intro (ms : Nat) {m : Move} (h : (s.later ms).Offers cfg m) :
      Turn cfg r s ((s.later ms).make cfg r m)

/-- A turn in which every unit in progress takes exactly the time that it needs. -/
inductive PromptTurn (cfg : Settings) (r : Registry) (s : State) : State → Prop
  | intro (ms : Nat) (htime : s.OnTime cfg ms) {m : Move} (h : (s.later ms).Offers cfg m) :
      PromptTurn cfg r s ((s.later ms).make cfg r m)

theorem PromptTurn.turn {cfg : Settings} {r : Registry} {s t : State} (h : PromptTurn cfg r s t) :
    Turn cfg r s t := by
  cases h with
  | intro ms _ h => exact .intro ms h

/-- A unit in progress is torn down from outside and leaves no result. -/
inductive Loss (s : State) : State → Prop
  | intro {before a after} (h : s.running = before ++ a :: after) :
      Loss s { s with running := before ++ after, disk := Workspace.discard s.disk a.workspace }

inductive Reaches (step : State → State → Prop) (s : State) : State → Prop
  | refl : Reaches step s s
  | next {t u : State} (h : Reaches step s t) (hstep : step t u) : Reaches step s u

theorem Reaches.head {step : State → State → Prop} {s t u : State} (h : step s t)
    (ht : Reaches step t u) : Reaches step s u := by
  induction ht with
  | refl => exact .next .refl h
  | next _ hstep ih => exact .next ih hstep

theorem Reaches.mono {step step' : State → State → Prop} {s t : State}
    (hsub : ∀ {s t}, step s t → step' s t) (h : Reaches step s t) : Reaches step' s t := by
  induction h with
  | refl => exact .refl
  | next _ hstep ih => exact .next ih (hsub hstep)

theorem Reaches.invariant {step : State → State → Prop} {P : State → Prop}
    (hkeep : ∀ s t, P s → step s t → P t) {s t : State} (hs : P s) (h : Reaches step s t) : P t := by
  induction h with
  | refl => exact hs
  | next _ hstep ih => exact hkeep _ _ ih hstep

def AnyTurn (cfg : Settings) (r : Registry) (s t : State) : Prop := Turn cfg r s t ∨ Loss s t

/-- The states that an execution of `units` may end in, with a result for every unit. -/
def Ends (cfg : Settings) (r : Registry) (d : Disk) (units : List SourceUnit) (e : State) : Prop :=
  ∃ s, Reaches (AnyTurn cfg r) (.init d units) s ∧ s.Idle ∧ e = s.completed units

end FunctionJar.Execution

namespace FunctionJar

def Step.wake (now wake : Nat) : Step → Nat
  | .sleep ms => now + ms
  | _ => wake

def Disk.stepped (d : Disk) : Step → Disk
  | .edit e => d.applied e
  | _ => d

end FunctionJar

namespace FunctionJar.Execution

namespace Active

def entering (r : Registry) (u : SourceUnit) (path : String) (d : Disk) (now : Nat) : Active :=
  ⟨u, path, now, now, (r.dispatch u path d).steps, (r.dispatch u path d).finish⟩

def stepped (now : Nat) (step : Step) (rest : List Step) (a : Active) : Active :=
  { a with rest, wake := step.wake now a.wake }

inductive Concludes (cfg : Settings) (now : Nat) (d : Disk) (a : Active) : Outcome → Prop
  | compiled {c d'} (hact : a.canAct now) (hrest : a.rest = []) (hfinish : a.finish = .compiled c)
      (hrelease : Workspace.release d a.workspace = .ok d') : Concludes cfg now d a (.compiled c)
  | unreleased {c fault} (hact : a.canAct now) (hrest : a.rest = [])
      (hfinish : a.finish = .compiled c)
      (hrelease : Workspace.release d a.workspace = .error fault) :
      Concludes cfg now d a (.failed ⟨a.unit.className, fault.failure⟩)
  | failed {f} (hact : a.canAct now) (hrest : a.rest = []) (hfinish : a.finish = .failed f) :
      Concludes cfg now d a (.failed ⟨a.unit.className, f⟩)
  | panicked {message} (hact : a.canAct now) (hrest : a.rest = [])
      (hfinish : a.finish = .panicked message) :
      Concludes cfg now d a (.failed ⟨a.unit.className, Execution.panicked message⟩)
  | expired (hlate : a.canAct now = false) :
      Concludes cfg now d a (.failed ⟨a.unit.className, timedOut cfg⟩)

end Active

inductive Change (cfg : Settings) (r : Registry) (s : State) : State → Prop
  | collected {before x after events} (h : s.ready = before ++ x :: after) :
      Change cfg r s { s with ready := before ++ after, results := s.results ++ [x], events }
  | refused {before u after fault} (h : s.queue = before ++ u :: after)
      (hfault : Workspace.allocate s.disk cfg.root s.held u.index u.className = .error fault)
      (hfree : s.running.length < cfg.slots) :
      Change cfg r s { s with
        disk := s.disk.applied (.makeFolders cfg.root)
        queue := before ++ after
        ready := s.ready ++ [⟨u.index, .failed ⟨u.className, fault.failure⟩, 0⟩] }
  | entered {before u after path d peak} (h : s.queue = before ++ u :: after)
      (hfree : s.running.length < cfg.slots)
      (hspace : Workspace.allocate s.disk cfg.root s.held u.index u.className = .ok (path, d))
      (hpeak : peak =
        max s.peak (State.strategies r (s.running ++ [.entering r u path d s.now]))) :
      Change cfg r s { s with
        disk := d
        queue := before ++ after
        running := s.running ++ [.entering r u path d s.now]
        peak }
  | continued {before a after step rest events} (h : s.running = before ++ a :: after)
      (hdue : a.due cfg ≤ s.now) (hact : a.canAct s.now) (hrest : a.rest = step :: rest) :
      Change cfg r s { s with
        disk := s.disk.stepped step
        running := before ++ a.stepped s.now step rest :: after
        events }
  | ended {before a after o events} (h : s.running = before ++ a :: after)
      (hdue : a.due cfg ≤ s.now) (ho : a.Concludes cfg s.now s.disk o) :
      Change cfg r s { s with
        disk := Workspace.discard s.disk a.workspace
        running := before ++ after
        ready := s.ready ++ [⟨a.unit.index, o, s.now - a.started⟩]
        events }

namespace State

variable {cfg : Settings} {r : Registry} {s : State} {before after : List Active} {a : Active}

theorem discard_of_release_ok {d d' : Disk} {path : String}
    (h : Workspace.release d path = .ok d') : Workspace.discard d path = d' := by
  simp [Workspace.discard, h, Except.toOption]

theorem discard_of_release_error {d : Disk} {path : String} {fault : Workspace.Fault}
    (h : Workspace.release d path = .error fault) : Workspace.discard d path = d := by
  simp [Workspace.discard, h, Except.toOption]

theorem fail_eq (s : State) (before : List Active) (a : Active) (after : List Active) (f : Failure) :
    ∃ events, s.fail before a after f =
    { s with
      disk := Workspace.discard s.disk a.workspace
      running := before ++ after
      ready := s.ready ++ [⟨a.unit.index, .failed ⟨a.unit.className, f⟩, s.now - a.started⟩]
      events } := by
  cases hrelease : Workspace.release s.disk a.workspace with
  | ok d => exact ⟨s.events, by simp [fail, leave, hrelease, discard_of_release_ok hrelease]⟩
  | error fault =>
      refine ⟨s.events ++ [releaseFailed a.unit fault], ?_⟩
      simp [fail, leave, hrelease, discard_of_release_error hrelease]

theorem perform_eq (s : State) (before : List Active) (a : Active) (after : List Active)
    (step : Step) (rest : List Step) : ∃ events,
    s.perform before a step rest after =
      { s with
        disk := s.disk.stepped step
        running := before ++ a.stepped s.now step rest :: after
        events } := by
  cases step with
  | edit e => exact ⟨s.events, rfl⟩
  | sleep ms => exact ⟨s.events, rfl⟩
  | note event => exact ⟨s.events ++ [event], rfl⟩

theorem change_fail {f : Failure} (h : s.running = before ++ a :: after)
    (hdue : a.due cfg ≤ s.now) (ho : a.Concludes cfg s.now s.disk (.failed ⟨a.unit.className, f⟩)) :
    Change cfg r s (s.fail before a after f) := by
  obtain ⟨events, he⟩ := fail_eq s before a after f
  rw [he]
  exact .ended h hdue ho

theorem change_conclude (h : s.running = before ++ a :: after) (hdue : a.due cfg ≤ s.now)
    (hact : a.canAct s.now) (hrest : a.rest = []) :
    Change cfg r s (s.conclude cfg before a after) := by
  unfold conclude
  cases hfinish : a.finish with
  | compiled c =>
      cases hrelease : Workspace.release s.disk a.workspace with
      | ok d =>
          simp only [succeed, hrelease]
          rw [← discard_of_release_ok hrelease]
          exact .ended h hdue (.compiled hact hrest hfinish hrelease)
      | error fault =>
          have hended : Change cfg r s { s with
              disk := Workspace.discard s.disk a.workspace
              running := before ++ after
              ready := s.ready ++
                [⟨a.unit.index, .failed ⟨a.unit.className, fault.failure⟩, s.now - a.started⟩] } :=
            .ended h hdue (.unreleased hact hrest hfinish hrelease)
          rw [discard_of_release_error hrelease] at hended
          simp only [succeed, hrelease]
          exact hended
  | failed f => exact change_fail h hdue (.failed hact hrest hfinish)
  | panicked message => exact .ended h hdue (.panicked hact hrest hfinish)
  | hangs =>
      -- A unit that hangs with no step left cannot act.
      simp [Active.canAct, Active.isStuck, hrest, hfinish] at hact

theorem change_advance (h : s.running = before ++ a :: after) (hdue : a.due cfg ≤ s.now) :
    Change cfg r s (s.advance cfg before a after) := by
  unfold advance
  cases hact : a.canAct s.now with
  | false =>
      rw [if_neg Bool.false_ne_true]
      exact change_fail h hdue (.expired hact)
  | true =>
      rw [if_pos rfl]
      cases hrest : a.rest with
      | nil => exact change_conclude h hdue hact hrest
      | cons step rest =>
          obtain ⟨events, he⟩ := perform_eq s before a after step rest
          simp only [he]
          exact .continued h hdue hact hrest

theorem change_start {u : SourceUnit} {front back : List SourceUnit}
    (h : s.queue = front ++ u :: back) (hfree : s.running.length < cfg.slots) :
    Change cfg r s (s.start cfg r u (front ++ back)) := by
  unfold start
  cases hspace : Workspace.allocate s.disk cfg.root s.held u.index u.className with
  | error fault => exact .refused h hspace hfree
  | ok place => exact .entered h hfree hspace rfl

theorem change_make {m : Move} (h : s.Offers cfg m) : Change cfg r s (s.make cfg r m) := by
  cases h with
  | collect h => exact .collected h
  | start h hfree => exact change_start h hfree
  | advance h hdue => exact change_advance h hdue

end State

theorem Turn.change {cfg : Settings} {r : Registry} {s t : State} (h : Turn cfg r s t) :
    ∃ ms, Change cfg r (s.later ms) t := by
  cases h with
  | intro ms h => exact ⟨ms, State.change_make h⟩

theorem PromptTurn.change {cfg : Settings} {r : Registry} {s t : State} (h : PromptTurn cfg r s t) :
    ∃ ms, s.OnTime cfg ms ∧ Change cfg r (s.later ms) t := by
  cases h with
  | intro ms htime h => exact ⟨ms, htime, State.change_make h⟩

end FunctionJar.Execution
