import FunctionJar.Execution.State

namespace FunctionJar.Execution

inductive Move
  | collect (r : UnitResult) (rest : List UnitResult)
  | start (u : SourceUnit) (rest : List SourceUnit)
  | advance (before : List Active) (a : Active) (after : List Active)

def earliest (cfg : Settings) : List Active → Option (List Active × Active × List Active)
  | [] => none
  | a :: rest =>
    match earliest cfg rest with
    | none => some ([], a, rest)
    | some (before, b, after) =>
      if a.due cfg ≤ b.due cfg then some ([], a, rest) else some (a :: before, b, after)

theorem earliest_eq {cfg : Settings} {running before after : List Active} {a : Active}
    (h : earliest cfg running = some (before, a, after)) : running = before ++ a :: after := by
  induction running generalizing before a after with
  | nil => simp [earliest] at h
  | cons b rest ih =>
    simp only [earliest] at h
    split at h
    · simp_all
    · next hrest =>
      split at h <;> grind

namespace State

def queued? (cfg : Settings) (s : State) : Option Move :=
  match s.queue with
  | u :: rest => if s.running.length < cfg.slots then some (.start u rest) else none
  | [] => none

def move? (cfg : Settings) (s : State) : Option Move :=
  match s.ready with
  | r :: rest => some (.collect r rest)
  | [] =>
    match earliest cfg s.running with
    | none => s.queued? cfg
    | some (before, a, after) =>
      if a.due cfg ≤ s.now then some (.advance before a after)
      else some ((s.queued? cfg).getD (.advance before a after))

def time (cfg : Settings) (s : State) : Move → Nat
  | .advance _ a _ => max s.now (a.due cfg)
  | _ => s.now

def after (cfg : Settings) (r : Registry) (s : State) (m : Move) : State :=
  let s := { s with now := s.time cfg m }
  match m with
  | .collect r rest => s.collect r rest
  | .start u rest => s.start cfg r u rest
  | .advance before a after => s.advance cfg before a after

/-- Steps that the units in progress still have before them, each with its end. -/
def work : List Active → Nat := total fun a => a.rest.length + 1

end State

inductive Cancelled
  | beforeStart
  | requested
  | outOfTime (ms : Nat)
  deriving DecidableEq, Repr

namespace Cancelled

def reason : Cancelled → String
  | beforeStart => "cancelled before start"
  | requested => "cancellation requested"
  | outOfTime ms => s!"batch exceeded its {ms}ms time budget"

def message (c : Cancelled) : String := s!"batch cancelled: {c.reason}"

end Cancelled

inductive Fault
  | cancelled (c : Cancelled)
  | tooManySlots
  deriving DecidableEq, Repr

namespace Fault

def cancelled? : Fault → Option Cancelled
  | cancelled c => some c
  | tooManySlots => none

def message : Fault → String
  | cancelled c => c.message
  | tooManySlots => s!"no more than {maxSlots} units can be in progress at once"

end Fault

/-- What ends a batch at `time` or before: a request at `cancelAt`, or its own budget. -/
def stop? (cfg : Settings) (cancelAt : Option Nat) (time : Nat) : Option Cancelled :=
  let request := cancelAt.filter (· ≤ time)
  let budget := cfg.batchTimeout.filter (· ≤ time)
  match request, budget with
  | none, none => none
  | some _, none => some .requested
  | none, some ms => some (.outOfTime ms)
  | some at', some ms => if at' ≤ ms then some .requested else some (.outOfTime ms)

def aborted (inFlight : Nat) : Log.Event where
  level := .debug
  target := "udf_build::executor"
  fields := [("message", .str "aborted in-flight units"), ("in_flight", .ofNat inFlight)]
  inBatch := true

structure Ended where
  state : State
  fault : Option Fault

theorem State.work_lt {cfg : Settings} {before after : List Active} {a : Active} {s : State} :
    State.work (s.advance cfg before a after).running < State.work (before ++ a :: after) := by
  have leave : ∀ o : Outcome, ∀ s : State, State.work (s.leave before a after o).running
      < State.work (before ++ a :: after) := by
    intro o s
    simp [State.leave, State.work]
  have fail : ∀ f : Failure, State.work (s.fail before a after f).running
      < State.work (before ++ a :: after) := by
    intro f
    simp only [State.fail]
    split <;> exact leave (.failed ⟨a.unit.className, f⟩) s
  unfold State.advance
  split
  · split
    · next step rest hrest =>
      unfold State.perform
      split <;> simp [State.work, hrest]
    · unfold State.conclude
      split
      · next u _ =>
        unfold State.succeed
        split
        · exact leave (.compiled u) s
        · next fault _ => exact leave (.failed ⟨a.unit.className, fault.failure⟩) s
      · exact fail _
      · next message _ => exact leave (.failed ⟨a.unit.className, panicked message⟩) s
      · exact fail _
  · exact fail _

theorem State.queue_advance {cfg : Settings} {before after : List Active} {a : Active} {s : State} :
    (s.advance cfg before a after).queue = s.queue := by
  have fail : ∀ f : Failure, (s.fail before a after f).queue = s.queue := by
    intro f
    simp only [State.fail]
    split <;> rfl
  unfold State.advance
  split
  · split
    · unfold State.perform
      split <;> rfl
    · unfold State.conclude
      split
      · unfold State.succeed
        split <;> rfl
      · exact fail _
      · rfl
      · exact fail _
  · exact fail _

theorem State.queue_start {cfg : Settings} {r : Registry} {u : SourceUnit}
    {rest : List SourceUnit} {s : State} : (s.start cfg r u rest).queue = rest := by
  unfold State.start
  split <;> rfl

theorem State.move?_eq_some {cfg : Settings} {s : State} {m : Move} (h : s.move? cfg = some m) :
    (∃ r rest, m = .collect r rest ∧ s.ready = r :: rest)
      ∨ (∃ u rest, m = .start u rest ∧ s.queue = u :: rest ∧ s.running.length < cfg.slots)
      ∨ ∃ before a after, m = .advance before a after ∧ s.running = before ++ a :: after := by
  have queued : ∀ {m}, s.queued? cfg = some m →
      ∃ u rest, m = .start u rest ∧ s.queue = u :: rest ∧ s.running.length < cfg.slots := by
    intro m h
    unfold State.queued? at h
    split at h
    · split at h
      · next u rest hq hlt => exact ⟨u, rest, by simp_all, hq, hlt⟩
      · simp at h
    · simp at h
  unfold State.move? at h
  split at h
  · next r rest hr => exact .inl ⟨r, rest, by simp_all, hr⟩
  · split at h
    · exact .inr (.inl (queued h))
    · next before a after he =>
      have split_eq := earliest_eq he
      split at h
      · exact .inr (.inr ⟨before, a, after, by simp_all, split_eq⟩)
      · cases hq : s.queued? cfg with
        | none => exact .inr (.inr ⟨before, a, after, by simp_all, split_eq⟩)
        | some m' =>
          obtain rfl : m' = m := by simp_all
          exact .inr (.inl (queued hq))

def runFrom (cfg : Settings) (r : Registry) (cancelAt : Option Nat) (s : State) : Ended :=
  match _ : s.move? cfg with
  | none => ⟨s, none⟩
  | some m =>
    match stop? cfg cancelAt (s.time cfg m) with
    | some c => ⟨{ s.abort with events := s.events ++ [aborted s.inFlight] }, some (.cancelled c)⟩
    | none => runFrom cfg r cancelAt (s.after cfg r m)
termination_by (s.queue.length, State.work s.running, s.ready.length)
decreasing_by
  rcases State.move?_eq_some ‹_› with ⟨r, rest, rfl, hr⟩ | ⟨u, rest, rfl, hq, _⟩ |
    ⟨before, a, after, rfl, hr⟩
  · apply Prod.Lex.right
    apply Prod.Lex.right
    simp [State.after, State.collect, hr]
  · apply Prod.Lex.left
    simp [State.after, State.queue_start, hq]
  · simp only [State.after, State.queue_advance]
    apply Prod.Lex.right
    apply Prod.Lex.left
    rw [hr]
    exact State.work_lt

/-- Executes units. A batch that was cancelled before it began does nothing at all, and neither does
one whose slots cannot be counted. -/
def run (cfg : Settings) (r : Registry) (cancelAt : Option Nat) (d : Disk)
    (units : List SourceUnit) : Ended :=
  if cancelAt = some 0 then ⟨.init d [], some (.cancelled .beforeStart)⟩
  else if maxSlots < cfg.slots then ⟨.init d [], some .tooManySlots⟩
  else
    let e := runFrom cfg r cancelAt (.init d units)
    match e.fault with
    | some _ => e
    | none => { e with state := e.state.completed units }

end FunctionJar.Execution
