import FunctionJar.Batch
import FunctionJar.CommandLine.Invocation
import FunctionJar.Json.Decode
import FunctionJar.Json.Parser
import FunctionJar.Log.Line

namespace FunctionJar.CommandLine

def programName : String := "udf-build"

def programVersion : String := "0.3.1"

structure Surroundings where
  launch : Launcher
  host : Host
  vars : Variables
  disk : Disk
  batch : String
  now : String

structure Outcome where
  exit : Nat
  out : List String
  err : List String
  disk : Disk

/-- What went wrong, and what lies behind it. -/
structure Complaint where
  head : String
  causes : List String
  deriving DecidableEq, Repr

namespace Complaint

def indented (first further : String) (text : String) : List String :=
  match Text.splitAt '\n' text.toList with
  | [] => [first]
  | l :: ls => (first ++ String.ofList l) :: ls.map fun l => further ++ String.ofList l

def causeLines : List String → List String
  | [] => []
  | [cause] => indented "    " "    " cause
  | causes => causes.zipIdx.flatMap fun (cause, n) =>
    indented (Text.padLeft 5 ' ' (toString n) ++ ": ") "       " cause

def lines (c : Complaint) : List String :=
  indented "Error: " "" c.head ++
    if c.causes.isEmpty then [] else "" :: "Caused by:" :: causeLines c.causes

def ofConfig (f : ConfigFault) : Complaint :=
  match f with
  | .unreadable _ e => ⟨f.message, [e.message]⟩
  | f => ⟨f.message, []⟩

end Complaint

/-- Options win over the environment, which wins over the file. -/
def withOptions (c : Config) (o : BuildOptions) : Config :=
  { c with
    output := o.output.getD c.output
    workers := o.workers.getD c.workers
    unitTimeout := match o.unitTimeoutSecs with
      | some secs => min (secs * 1000) (Nat.pow 2 64 - 1)
      | none => c.unitTimeout }

def loadConfig (s : Surroundings) (o : BuildOptions) : Except Complaint Config := do
  let base ← match o.config with
    | some path => (Config.ofFile s.host s.disk path).mapError Complaint.ofConfig
    | none => pure (Config.standard s.host)
  let c ← (base.withVariables s.vars).mapError fun f =>
    ⟨"Invalid UDF_BUILD_* environment", [f.message]⟩
  let c := withOptions c o
  c.validate.mapError Complaint.ofConfig
  return c

def loadDefinitions (d : Disk) (path : String) : Except Complaint (List Definition) := do
  let unread (cause : String) : Complaint := ⟨s!"Failed to read {path}", [cause]⟩
  let invalid (causes : List String) : Complaint := ⟨s!"Invalid definitions in {path}", causes⟩
  let bytes ← (d.read path).mapError fun e => unread e.message
  let some text := Text.decode? bytes | throw (unread "stream did not contain valid UTF-8")
  let some j := Json.parseFor? Definition.keys.contains text | throw (invalid [])
  (Definition.listOfJson j).mapError fun e => invalid [e.message]

def artifactObj (now : String) (a : Archive.Artifact) : Json :=
  .obj [("path", .str a.path), ("classes", .arr (a.classes.map .str)),
    ("digest", .str a.digest), ("size_bytes", .ofNat a.size), ("created_at", .str now)]

def failureObj (f : UnitFailure) : Json :=
  .obj [("class_name", .str f.className), ("kind", .str f.failure.kind.name),
    ("reason", .str f.failure.reason)]

def reportObj (now : String) (o : BuildOutput) : Json :=
  let archive := match o.archive with
    | some a => artifactObj now a
    | none => .null
  .obj [("batch_id", .str o.batch),
    ("report", .obj [("success", .arr (o.report.success.map .str)),
      ("failed", .arr (o.report.failed.map .str))]),
    ("failures", .arr (o.failures.map failureObj)), ("archive", archive),
    ("output_path", .str o.output), ("duration_ms", .ofNat o.duration)]

def failureLine (f : UnitFailure) : String :=
  s!"  ✗ {f.className} [{f.failure.kind.name}]: {f.failure.reason}"

def summaryTexts (o : BuildOutput) : List String :=
  [s!"Batch: {o.batch}", s!"Duration: {o.duration}ms", "", o.summary] ++ o.failures.map failureLine

/-- The lines of texts that are printed one below the other. -/
def printed (texts : List String) : List String :=
  texts.flatMap fun t => (Text.splitAt '\n' t.toList).map String.ofList

def finished (r : Report) : Log.Event where
  level := .info
  target := "udf_build"
  fields := [("message", .str "build finished"), ("success", .ofNat r.success.length),
    ("failed", .ofNat r.failed.length)]
  inBatch := false

/-- The variable wins over the flag where it holds a filter. -/
def filterOf (vs : Variables) (verbose : Bool) : Log.Filter :=
  let usual : Log.Filter :=
    [.forTarget "udf_build" (some (if verbose then .debug else .info)), .forTarget "" (some .warn)]
  ((vs.text? "RUST_LOG").bind Log.Filter.parse?).getD usual

def complain (d : Disk) (log : List String) (c : Complaint) : Outcome := ⟨1, [], log ++ c.lines, d⟩

def runBuild (s : Surroundings) (style : Log.Style) (o : BuildOptions) : Outcome :=
  let loaded : Except Complaint (Config × List Definition) := do
    return (← loadConfig s o, ← loadDefinitions s.disk o.definitions)
  match loaded with
  | .error c => complain s.disk [] c
  | .ok (cfg, ds) =>
    let b := Batch.build cfg (cfg.registry s.launch) ⟨s.batch, none, .none⟩ s.disk ds
    match b.outcome with
    | .error (.execution .tooManySlots) =>
      ⟨101, [], style.lines b.events ++ [Execution.Fault.tooManySlots.message], b.disk⟩
    | .error e => complain b.disk (style.lines b.events) ⟨"Build batch failed", e.messages⟩
    | .ok out =>
      let texts := if o.jsonReport then [(reportObj s.now out).pretty 0] else summaryTexts out
      ⟨0, printed texts, style.lines (b.events ++ [finished out.report]), b.disk⟩

def inspectTexts (a : Archive.Artifact) : List String :=
  [s!"Archive: {a.path}", s!"Digest: {a.digest}", s!"Size: {a.size} bytes",
    s!"Classes ({a.classes.length}):"] ++ a.classes.map fun c => "  " ++ c

def runInspect (s : Surroundings) (path : String) : Outcome :=
  match Archive.inspect s.disk path with
  | .ok a => ⟨0, printed (inspectTexts a), [], s.disk⟩
  | .error f =>
    let causes := match f with
      | .os e => [e.message]
      | .notArchive => []
    complain s.disk [] ⟨s!"Failed to read archive {path}", causes⟩

def usage : List String :=
  [s!"Usage: {programName} [OPTIONS] <COMMAND>", "", "Commands:",
    "  build    Compile a batch of definitions and write the archive",
    "  inspect  Show what an archive contains"]

def run (s : Surroundings) (args : List String) : Outcome :=
  match parse args with
  | .error .usage => ⟨2, [], usage, s.disk⟩
  | .error .help => ⟨0, usage, [], s.disk⟩
  | .error .version => ⟨0, [s!"{programName} {programVersion}"], [], s.disk⟩
  | .ok i =>
    match i.command with
    | .build o => runBuild s ⟨i.json, filterOf s.vars i.verbose, s.batch, s.now⟩ o
    | .inspect archive => runInspect s archive

end FunctionJar.CommandLine
