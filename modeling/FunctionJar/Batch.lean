import FunctionJar.Archive.Assemble
import FunctionJar.Archive.Conflict
import FunctionJar.Config
import FunctionJar.Execution.Run

namespace FunctionJar

open Archive (Artifact Refusals WriteFault)

structure Session where
  batch : String
  cancelAt : Option Nat
  refusals : Refusals

inductive BuildError
  | archiveWrite (path : String) (fault : WriteFault)
  | execution (f : Execution.Fault)
  | config (f : ConfigFault)
  deriving DecidableEq, Repr

namespace BuildError

def message : BuildError → String
  | archiveWrite path fault => s!"failed to write archive {path}: {fault.message}"
  | execution f => f.message
  | config f => f.message

def messages : BuildError → List String
  | archiveWrite path fault => [message (archiveWrite path fault), fault.message]
  | e => [e.message]

end BuildError

structure BuildOutput where
  batch : String
  report : Report
  failures : List UnitFailure
  archive : Option Artifact
  output : String
  duration : Nat
  deriving DecidableEq, Repr

def BuildOutput.summary (o : BuildOutput) : String := o.report.summary o.output o.archive.isSome

def Normalized.result? : Normalized → Option UnitResult
  | .ready _ => none
  | .rejected index className reason =>
    some ⟨index, .failed ⟨className, reason.failure⟩, 0⟩

def Normalized.event? : Normalized → Option Log.Event
  | .ready _ => none
  | .rejected index className reason =>
    some (Log.definitionRejected index className reason.message)

def Config.execution (c : Config) : Execution.Settings :=
  ⟨c.workspaceRoot, c.workers, c.unitTimeout, c.batchTimeout⟩

def Config.registry (run : Launcher) (c : Config) : Registry := .builtin run c.java c.scala c.python

/-- A unit that failed because of a clash. -/
def clashEvent (f : UnitFailure) : Log.Event where
  level := .warn
  target := "udf_build::archive"
  fields := [("message", .str "archive entry conflict"), ("class_name", .str f.className),
    ("reason", .str f.failure.reason)]
  inBatch := true

/-- The failures that are in `after` in place of compiled units. -/
def newFailures (before after : List UnitResult) : List UnitFailure :=
  (before.zip after).filterMap fun p =>
    if p.1.outcome.isCompiled then p.2.outcome.failure? else none

structure Batch where
  disks : List Disk
  disk : Disk
  events : List Log.Event
  outcome : Except BuildError BuildOutput

namespace Batch

def results (ns : List Normalized) (executed : List UnitResult) : List UnitResult :=
  ns.filterMap Normalized.result? ++ executed

/-- What the results come to. Their order does not matter. -/
def tally (ns : List Normalized) (executed : List UnitResult) : Aggregate :=
  aggregate (Archive.rejectConflicts (results ns executed))

def clashes (ns : List Normalized) (executed : List UnitResult) : List Log.Event :=
  let all := results ns executed
  (newFailures (UnitResult.sort all) (Archive.rejectConflicts all)).map clashEvent

def finish (cfg : Config) (s : Session) (ns : List Normalized) (e : Execution.State) : Batch :=
  let a := tally ns e.results
  let w := Archive.assemble s.refusals e.disk cfg.output a.units
  let events := clashes ns e.results ++ w.events
  match w.outcome with
  | .error fault => ⟨w.disks, w.disk, events, .error (.archiveWrite cfg.output fault)⟩
  | .ok archive =>
    let o : BuildOutput := ⟨s.batch, a.report, a.failures, archive, cfg.output, e.now⟩
    ⟨w.disks, w.disk, events ++ [Log.batchFinished s.batch a.report e.now], .ok o⟩

def build (cfg : Config) (r : Registry) (s : Session) (d : Disk) (ds : List Definition) : Batch :=
  match cfg.validate with
  | .error f => ⟨[d], d, [], .error (.config f)⟩
  | .ok () =>
    let ns := Definition.normalize ds
    let units := ns.filterMap Normalized.unit?
    let opening := Log.batchStarted s.batch ds.length cfg.execution.slots ::
      ns.filterMap Normalized.event?
    let e := Execution.run cfg.execution r s.cancelAt d units
    let opening := opening ++ e.state.events
    match e.fault with
    | some f =>
      let closing := f.cancelled?.map fun c => Log.batchCancelled s.batch c.reason units.length
      ⟨[e.state.disk], e.state.disk, opening ++ closing.toList, .error (.execution f)⟩
    | none =>
      let b := finish cfg s ns e.state
      { b with events := opening ++ b.events }

end Batch

end FunctionJar
