import FunctionJar.Disk.Basic
import FunctionJar.Text.Decimal
import FunctionJar.Toml.Parser
import FunctionJar.Toolchain

namespace FunctionJar

structure Config where
  output : String
  workspaceRoot : String
  workers : Nat
  unitTimeout : Nat
  batchTimeout : Option Nat
  java : Toolchain
  scala : Toolchain
  python : Option Toolchain
  deriving DecidableEq, Repr

abbrev Variables := List (String × Text.Bytes)

def Variables.text? (vs : Variables) (name : String) : Option String :=
  (vs.lookup name).bind Text.decode?

structure Host where
  temporary : String
  processors : Nat

def Host.ofVariables (processors : Nat) (vs : Variables) : Host :=
  ⟨(vs.text? "TMPDIR").getD "/tmp", processors⟩

inductive ConfigFault
  | noOutput
  | noFileName (path : String)
  | noWorkers
  | noUnitTimeout
  | noBatchTimeout
  | notNumber (name value : String)
  | unreadable (path : String) (e : OsError)
  | notText (path : String)
  | malformed (path : String)
  deriving DecidableEq, Repr

namespace ConfigFault

def invalid (reason : String) : String := s!"invalid build configuration: {reason}"

def unread (path reason : String) : String := s!"failed to read config file {path}: {reason}"

def message : ConfigFault → String
  | noOutput => invalid "output_path must not be empty"
  | noFileName path => invalid s!"output_path has no file name: {path}"
  | noWorkers => invalid "max_workers must be at least 1"
  | noUnitTimeout => invalid "unit_timeout_ms must be positive"
  | noBatchTimeout => invalid "batch_timeout_ms must be positive"
  | notNumber name value => invalid s!"{name} is not a number: {value}"
  | unreadable path e => unread path e.message
  | notText path => unread path "stream did not contain valid UTF-8"
  | malformed path => s!"failed to parse config file {path}"

end ConfigFault

def Toolchain.ofToml? : Toml → Option Toolchain
  | .table _ ms => do
    return ⟨← (← ms.lookup "program").text?, ← args? (ms.lookup "args")⟩
  | .array (program :: rest) => do return ⟨← program.text?, ← args? rest.head?⟩
  | _ => none
where
  args? : Option Toml → Option (List String)
    | none => some []
    | some t => t.texts?

namespace Config

def standard (h : Host) : Config where
  output := Path.join (Path.join h.temporary "udf") "udf.jar"
  workspaceRoot := h.temporary
  workers := h.processors
  unitTimeout := 60000
  batchTimeout := none
  java := .named "javac"
  scala := .named "scalac"
  python := none

/-- A value under a key, read by `read`, or the one there is without it. -/
def field {α : Type} (ms : Toml.Members) (key : String) (read : Toml → Option α) (without : α) :
    Option α :=
  match ms.lookup key with
  | none => some without
  | some t => read t

/-- The configuration with what a table says in place of what it had. Other keys do not matter. -/
def ofTable? (c : Config) (ms : Toml.Members) : Option Config := do
  return {
    output := ← field ms "output_path" Toml.text? c.output
    workspaceRoot := ← field ms "workspace_root" Toml.text? c.workspaceRoot
    workers := ← field ms "max_workers" Toml.count? c.workers
    unitTimeout := ← field ms "unit_timeout_ms" Toml.count? c.unitTimeout
    batchTimeout := ← field ms "batch_timeout_ms" (fun t => t.count?.map some) c.batchTimeout
    java := ← field ms "java" Toolchain.ofToml? c.java
    scala := ← field ms "scala" Toolchain.ofToml? c.scala
    python := ← field ms "python" (fun t => (Toolchain.ofToml? t).map some) c.python }

def ofFile (h : Host) (d : Disk) (path : String) : Except ConfigFault Config := do
  let bytes ← (d.read path).mapError (ConfigFault.unreadable path)
  let some text := Text.decode? bytes | throw (.notText path)
  match (Toml.parse? text).bind (ofTable? (standard h)) with
  | some c => return c
  | none => throw (.malformed path)

def numberIn (vs : Variables) (name : String) (without : Nat) : Except ConfigFault Nat :=
  match vs.text? name with
  | none => .ok without
  | some value =>
    match Text.count? value with
    | some n => .ok n
    | none => .error (.notNumber name value)

def programIn (vs : Variables) (name : String) (without : Toolchain) : Toolchain :=
  match vs.text? name with
  | none => without
  | some program => .named program

/-- The configuration with what the environment says in place of what it had. -/
def withVariables (c : Config) (vs : Variables) : Except ConfigFault Config := do
  let workers ← numberIn vs "UDF_BUILD_WORKERS" c.workers
  let unitTimeout ← numberIn vs "UDF_BUILD_UNIT_TIMEOUT_MS" c.unitTimeout
  return { c with
    output := (vs.text? "UDF_BUILD_OUTPUT").getD c.output
    workers, unitTimeout
    java := programIn vs "UDF_BUILD_JAVAC" c.java
    scala := programIn vs "UDF_BUILD_SCALAC" c.scala
    python := match vs.text? "UDF_BUILD_PYTHON" with
      | none => c.python
      | some program => some (.named program) }

def validate (c : Config) : Except ConfigFault Unit := do
  if c.output = "" then throw .noOutput
  if (Path.fileName c.output).isNone then throw (.noFileName c.output)
  if c.workers = 0 then throw .noWorkers
  if c.unitTimeout = 0 then throw .noUnitTimeout
  if c.batchTimeout = some 0 then throw .noBatchTimeout

end Config

end FunctionJar
