import FunctionJar.Log
import FunctionJar.Report

namespace FunctionJar.Log

def batchTarget : String := "udf_build::obs"

/-- The span of a batch. -/
def batchSpan (batch : String) : Span := ⟨"udf.batch", batchTarget, .info, [("batch_id", batch)]⟩

def batchEvent (level : Level) (name : String) (fields : List (String × Json)) : Event :=
  ⟨level, batchTarget, ("event", .str name) :: fields, true⟩

def batchStarted (batch : String) (definitions workers : Nat) : Event :=
  batchEvent .info "batch.started"
    [("batch_id", .str batch), ("definitions", .ofNat definitions), ("workers", .ofNat workers)]

def definitionRejected (index : Nat) (className reason : String) : Event :=
  batchEvent .warn "definition.rejected"
    [("index", .ofNat index), ("class_name", .str className), ("reason", .str reason)]

def unitFinished (r : UnitResult) : Event :=
  let index := ("index", Json.ofNat r.index)
  let duration := ("duration_ms", Json.ofNat r.duration)
  match r.outcome with
  | .compiled u => batchEvent .info "unit.finished"
      [index, ("class_name", .str u.className), ("dialect", .str u.dialect.name),
        ("entries", .ofNat u.entries.length), duration, ("success", .bool true)]
  | .failed f => batchEvent .warn "unit.finished"
      [index, ("class_name", .str f.className), ("kind", .str f.failure.kind.name),
        ("reason", .str f.failure.reason), duration, ("success", .bool false)]

def archiveWritten (path : String) (classes size : Nat) (digest : String) : Event :=
  batchEvent .info "archive.written"
    [("path", .str path), ("classes", .ofNat classes), ("size_bytes", .ofNat size),
      ("digest", .str digest)]

def archiveSkipped (path : String) : Event :=
  batchEvent .warn "archive.skipped" [("path", .str path)]

def batchCancelled (batch reason : String) (inFlight : Nat) : Event :=
  batchEvent .warn "batch.cancelled"
    [("batch_id", .str batch), ("reason", .str reason), ("in_flight", .ofNat inFlight)]

def batchFinished (batch : String) (r : Report) (duration : Nat) : Event :=
  batchEvent .info "batch.finished"
    [("batch_id", .str batch), ("success", .ofNat r.success.length),
      ("failed", .ofNat r.failed.length), ("duration_ms", .ofNat duration)]

end FunctionJar.Log
