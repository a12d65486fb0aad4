import FunctionJar.Log.Batch
import FunctionJar.Registry
import FunctionJar.Total

namespace FunctionJar.Execution

structure Settings where
  root : String
  workers : Nat
  unitTimeout : Nat
  batchTimeout : Option Nat

def Settings.slots (cfg : Settings) : Nat := max 1 cfg.workers

/-- More units in progress than this cannot be counted in 64 bits, three of which are flags. -/
def maxSlots : Nat := Nat.pow 2 61 - 1

structure Active where
  unit : SourceUnit
  workspace : String
  started : Nat
  wake : Nat
  rest : List Step
  finish : Finish

namespace Active

def isStuck (a : Active) : Bool := a.rest.isEmpty && a.finish == .hangs

def deadline (cfg : Settings) (a : Active) : Nat := a.started + cfg.unitTimeout

def due (cfg : Settings) (a : Active) : Nat :=
  if a.isStuck then a.deadline cfg else min a.wake (a.deadline cfg)

def canAct (now : Nat) (a : Active) : Bool := !a.isStuck && a.wake ≤ now

end Active

structure State where
  now : Nat
  disk : Disk
  queue : List SourceUnit
  running : List Active
  ready : List UnitResult
  results : List UnitResult
  events : List Log.Event
  peak : Nat

def timedOut (cfg : Settings) : Failure :=
  ⟨.timeout, s!"compilation exceeded {cfg.unitTimeout}ms time budget"⟩

def panicked (message : Option String) : Failure :=
  ⟨.panicked, match message with
    | some m => s!"compiler panicked: {m}"
    | none => "compiler panicked"⟩

def lost : Failure := ⟨.panicked, "compilation task terminated abnormally"⟩

def releaseFailed (u : SourceUnit) (f : Workspace.Fault) : Log.Event where
  level := .warn
  target := "udf_build::executor"
  fields := [("message", .str "workspace release failed"), ("class_name", .str u.className),
    ("error", .str f.failure.display)]
  inBatch := false

namespace State

def init (d : Disk) (units : List SourceUnit) : State := ⟨0, d, units, [], [], [], [], 0⟩

def held (s : State) : List String := s.running.map (·.workspace)

def strategies (r : Registry) (running : List Active) : Nat :=
  running.countP fun a => (r.strategy? a.unit.dialect).isSome

/-- The next unit leaves the queue. It enters its strategy if it gets a workspace. -/
def start (cfg : Settings) (r : Registry) (u : SourceUnit) (rest : List SourceUnit) (s : State) :
    State :=
  match Workspace.allocate s.disk cfg.root s.held u.index u.className with
  | .error f =>
    { s with
      disk := s.disk.applied (.makeFolders cfg.root)
      queue := rest
      ready := s.ready ++ [⟨u.index, .failed ⟨u.className, f.failure⟩, 0⟩] }
  | .ok (workspace, d) =>
    let w := r.dispatch u workspace d
    let running := s.running ++ [⟨u, workspace, s.now, s.now, w.steps, w.finish⟩]
    { s with disk := d, queue := rest, running, peak := max s.peak (strategies r running) }

def perform (before : List Active) (a : Active) (step : Step) (rest : List Step)
    (after : List Active) (s : State) : State :=
  let running (a : Active) : List Active := before ++ { a with rest } :: after
  match step with
  | .edit e => { s with disk := s.disk.applied e, running := running a }
  | .sleep ms => { s with running := running { a with wake := s.now + ms } }
  | .note event => { s with events := s.events ++ [event], running := running a }

def leave (before : List Active) (a : Active) (after : List Active) (o : Outcome) (s : State) :
    State :=
  { s with
    running := before ++ after
    ready := s.ready ++ [⟨a.unit.index, o, s.now - a.started⟩] }

def fail (before : List Active) (a : Active) (after : List Active) (f : Failure) (s : State) :
    State :=
  let s := leave before a after (.failed ⟨a.unit.className, f⟩) s
  match Workspace.release s.disk a.workspace with
  | .ok d => { s with disk := d }
  | .error fault => { s with events := s.events ++ [releaseFailed a.unit fault] }

/-- A unit has compiled only if its workspace can be released. -/
def succeed (before : List Active) (a : Active) (after : List Active) (u : CompiledUnit)
    (s : State) : State :=
  match Workspace.release s.disk a.workspace with
  | .ok d => { leave before a after (.compiled u) s with disk := d }
  | .error fault => leave before a after (.failed ⟨a.unit.className, fault.failure⟩) s

def panic (before : List Active) (a : Active) (after : List Active) (message : Option String)
    (s : State) : State :=
  { leave before a after (.failed ⟨a.unit.className, panicked message⟩) s with
    disk := Workspace.discard s.disk a.workspace }

def expire (cfg : Settings) (before : List Active) (a : Active) (after : List Active) (s : State) :
    State :=
  fail before a after (timedOut cfg) s

def conclude (cfg : Settings) (before : List Active) (a : Active) (after : List Active)
    (s : State) : State :=
  match a.finish with
  | .compiled u => succeed before a after u s
  | .failed f => fail before a after f s
  | .panicked message => panic before a after message s
  | .hangs => expire cfg before a after s

def advance (cfg : Settings) (before : List Active) (a : Active) (after : List Active)
    (s : State) : State :=
  if a.canAct s.now then
    match a.rest with
    | step :: rest => perform before a step rest after s
    | [] => conclude cfg before a after s
  else expire cfg before a after s

def collect (r : UnitResult) (rest : List UnitResult) (s : State) : State :=
  { s with
    ready := rest
    results := s.results ++ [r]
    events := s.events ++ [Log.unitFinished r] }

def inFlight (s : State) : Nat := s.queue.length + s.running.length + s.ready.length

/-- Failures for the units that no result has the index of, in the order of the units. -/
def missing (units : List SourceUnit) (s : State) : List UnitResult :=
  (units.filter fun u => !s.results.any (·.index == u.index)).map fun u =>
    ⟨u.index, .failed ⟨u.className, lost⟩, 0⟩

def completed (units : List SourceUnit) (s : State) : State :=
  { s with
    results := s.results ++ s.missing units
    events := s.events ++ (s.missing units).map Log.unitFinished }

def abort (s : State) : State :=
  { s with
    disk := s.running.foldl (fun d a => Workspace.discard d a.workspace) s.disk
    queue := []
    running := []
    ready := []
    results := [] }

end State

end FunctionJar.Execution
