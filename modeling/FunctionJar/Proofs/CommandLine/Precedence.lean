import FunctionJar.CommandLine.Run
import FunctionJar.Proofs.Except
import FunctionJar.Proofs.Text.Utf8

namespace FunctionJar

/-- Digits for a number below `2 ^ 64`, with a plus sign in front of them or without. -/
def Text.Numeral (s : String) (n : Nat) : Prop :=
  ∃ digits, (s.toList = digits ∨ s.toList = '+' :: digits) ∧ digits ≠ [] ∧
    (∀ c ∈ digits, c.isDigit) ∧ natOfDigits digits = n ∧ n < Nat.pow 2 64

theorem Text.dropPlus_eq {s digits : List Char} (hdigits : ∀ c ∈ digits, c.isDigit)
    (h : s = digits ∨ s = '+' :: digits) : dropPlus s = digits := by
  rcases h with rfl | rfl
  · cases s with
    | nil => rfl
    | cons c rest =>
        have hc : c ≠ '+' := by
          rintro rfl
          exact absurd (hdigits '+' List.mem_cons_self) (by decide)
        simp [dropPlus, hc]
  · rfl

theorem Text.eq_dropPlus (s : List Char) : s = dropPlus s ∨ s = '+' :: dropPlus s := by
  unfold dropPlus
  split
  · exact .inr rfl
  · exact .inl rfl

theorem Text.count?_eq_some_iff {s : String} {n : Nat} : count? s = some n ↔ Numeral s n := by
  rw [count?, Option.filter_eq_some_iff, digits?]
  constructor
  · rintro ⟨hdigits, hsmall⟩
    split at hdigits
    · next hall =>
        refine ⟨dropPlus s.toList, eq_dropPlus _, hall.1, ?_, Option.some.inj hdigits, ?_⟩
        · simpa using hall.2
        · simpa using hsmall
    · cases hdigits
  · rintro ⟨digits, hs, hne, hall, hvalue, hsmall⟩
    rw [dropPlus_eq hall hs, if_pos ⟨hne, by simpa using hall⟩, hvalue]
    exact ⟨rfl, by simpa using hsmall⟩

def firstOf {α : Type} : List (Option α) → α → α
  | [], without => without
  | some a :: _, _ => a
  | none :: rest, without => firstOf rest without

theorem firstOf_cons {α : Type} (x : Option α) (xs : List (Option α)) (without : α) :
    firstOf (x :: xs) without = x.getD (firstOf xs without) := by
  cases x <;> rfl

namespace Config

def said {α : Type} (ms : Toml.Members) (key : String) (read : Toml → Option α) : Option α :=
  (ms.lookup key).bind read

def numeral? (vs : Variables) (name : String) : Option Nat := (vs.text? name).bind Text.count?

def program? (vs : Variables) (name : String) : Option Toolchain :=
  (vs.text? name).map fun program => ⟨program, []⟩

def NumbersRead (vs : Variables) : Prop :=
  ∀ name ∈ ["UDF_BUILD_WORKERS", "UDF_BUILD_UNIT_TIMEOUT_MS"], ∀ value,
    vs.text? name = some value → ∃ n, Text.Numeral value n

theorem field_eq_some {α : Type} {ms : Toml.Members} {key : String} {read : Toml → Option α}
    {without a : α} (h : field ms key read without = some a) :
    a = (said ms key read).getD without := by
  unfold field at h
  unfold said
  split at h
  · next hkey => rw [hkey, ← Option.some.inj h]; rfl
  · next t hkey => rw [hkey, Option.bind_some, h]; rfl

/-- Every value of a configuration comes from its table, or is what there is without that. -/
structure Tabled (usual : Config) (ms : Toml.Members) (c : Config) : Prop where
  output : c.output = (said ms "output_path" Toml.text?).getD usual.output
  workspaceRoot : c.workspaceRoot = (said ms "workspace_root" Toml.text?).getD usual.workspaceRoot
  workers : c.workers = (said ms "max_workers" Toml.count?).getD usual.workers
  unitTimeout : c.unitTimeout = (said ms "unit_timeout_ms" Toml.count?).getD usual.unitTimeout
  batchTimeout : c.batchTimeout = (said ms "batch_timeout_ms" Toml.count?).or usual.batchTimeout
  java : c.java = (said ms "java" Toolchain.ofToml?).getD usual.java
  scala : c.scala = (said ms "scala" Toolchain.ofToml?).getD usual.scala
  python : c.python = (said ms "python" Toolchain.ofToml?).or usual.python

theorem said_map {α : Type} (ms : Toml.Members) (key : String) (read : Toml → Option α)
    (without : Option α) : (said ms key fun t => (read t).map some).getD without =
      (said ms key read).or without := by
  unfold said
  cases ms.lookup key with
  | none => rfl
  | some t => cases h : read t <;> simp [h]

theorem tabled_of_ofTable? {usual c : Config} {ms : Toml.Members}
    (h : usual.ofTable? ms = some c) : Tabled usual ms c := by
  simp only [ofTable?, Option.bind_eq_bind, Option.bind_eq_some_iff, Option.pure_def,
    Option.some.injEq] at h
  obtain ⟨output, houtput, root, hroot, workers, hworkers, timeout, htimeout, batch, hbatch,
    java, hjava, scala, hscala, python, hpython, rfl⟩ := h
  exact ⟨field_eq_some houtput, field_eq_some hroot, field_eq_some hworkers,
    field_eq_some htimeout, (field_eq_some hbatch).trans (said_map ..), field_eq_some hjava,
    field_eq_some hscala, (field_eq_some hpython).trans (said_map ..)⟩

theorem tabled_nil (usual : Config) : Tabled usual [] usual where
  output := rfl
  workspaceRoot := rfl
  workers := rfl
  unitTimeout := rfl
  batchTimeout := rfl
  java := rfl
  scala := rfl
  python := rfl

theorem numberIn_eq_ok_iff {vs : Variables} {name : String} {without n : Nat} :
    numberIn vs name without = .ok n ↔
      (∀ value, vs.text? name = some value → ∃ n, Text.Numeral value n) ∧
        n = (numeral? vs name).getD without := by
  unfold numberIn numeral?
  cases hname : vs.text? name with
  | none => simp [eq_comm]
  | some value =>
      simp only [← Text.count?_eq_some_iff, Option.bind_some]
      cases hvalue : Text.count? value <;> simp [hvalue, eq_comm]

def overlaid (c : Config) (vs : Variables) : Config :=
  { c with
    output := (vs.text? "UDF_BUILD_OUTPUT").getD c.output
    workers := (numeral? vs "UDF_BUILD_WORKERS").getD c.workers
    unitTimeout := (numeral? vs "UDF_BUILD_UNIT_TIMEOUT_MS").getD c.unitTimeout
    java := (program? vs "UDF_BUILD_JAVAC").getD c.java
    scala := (program? vs "UDF_BUILD_SCALAC").getD c.scala
    python := (program? vs "UDF_BUILD_PYTHON").or c.python }

theorem programIn_eq (vs : Variables) (name : String) (without : Toolchain) :
    programIn vs name without = (program? vs name).getD without := by
  unfold programIn program?
  cases vs.text? name <;> rfl

theorem withVariables_eq {c : Config} {vs : Variables} {workers timeout : Nat}
    (hworkers : numberIn vs "UDF_BUILD_WORKERS" c.workers = .ok workers)
    (htimeout : numberIn vs "UDF_BUILD_UNIT_TIMEOUT_MS" c.unitTimeout = .ok timeout) :
    c.withVariables vs = .ok (c.overlaid vs) := by
  have hfirst := (numberIn_eq_ok_iff.mp hworkers).2
  have hsecond := (numberIn_eq_ok_iff.mp htimeout).2
  rw [withVariables, hworkers, htimeout]
  simp only [ok_bind, hfirst, hsecond, programIn_eq, overlaid]
  -- The program that is optional without the environment is left.
  cases hpython : vs.text? "UDF_BUILD_PYTHON" <;> simp [program?, hpython] <;> rfl

theorem withVariables_eq_ok_iff {c c' : Config} {vs : Variables} :
    c.withVariables vs = .ok c' ↔ NumbersRead vs ∧ c' = c.overlaid vs := by
  simp only [NumbersRead, List.forall_mem_cons, List.not_mem_nil, false_imp_iff, implies_true,
    and_true]
  constructor
  · intro h
    obtain ⟨workers, hworkers, hrest⟩ := bind_ok h
    obtain ⟨timeout, htimeout, -⟩ := bind_ok hrest
    rw [withVariables_eq hworkers htimeout] at h
    exact ⟨⟨(numberIn_eq_ok_iff.mp hworkers).1, (numberIn_eq_ok_iff.mp htimeout).1⟩,
      (Except.ok.inj h).symm⟩
  · rintro ⟨⟨hfirst, hsecond⟩, rfl⟩
    exact withVariables_eq (numberIn_eq_ok_iff.mpr ⟨hfirst, rfl⟩)
      (numberIn_eq_ok_iff.mpr ⟨hsecond, rfl⟩)

end Config

namespace CommandLine

open Config (said numeral? program? NumbersRead Tabled)

/-- The members of the file that a run reads its configuration from, all those that count being of
the right kind. Without a file there are none. -/
inductive FileSays (s : Surroundings) (o : BuildOptions) : Toml.Members → Prop
  | nothing (hpath : o.config = none) : FileSays s o []
  | members {path bytes text ms} (hpath : o.config = some path)
      (hread : s.disk.read path = .ok bytes) (htext : Text.decode? bytes = some text)
      (hparse : Toml.parse? text = some ms)
      (hkinds : ((Config.standard s.host).ofTable? ms).isSome) :
      FileSays s o ms

def milliseconds (secs : Nat) : Nat := min (secs * 1000) (Nat.pow 2 64 - 1)

structure Layered (usual : Config) (ms : Toml.Members) (vs : Variables) (o : BuildOptions)
    (c : Config) : Prop where
  output : c.output =
    firstOf [o.output, vs.text? "UDF_BUILD_OUTPUT", said ms "output_path" Toml.text?] usual.output
  workers : c.workers =
    firstOf [o.workers, numeral? vs "UDF_BUILD_WORKERS", said ms "max_workers" Toml.count?]
      usual.workers
  unitTimeout : c.unitTimeout =
    firstOf [o.unitTimeoutSecs.map milliseconds, numeral? vs "UDF_BUILD_UNIT_TIMEOUT_MS",
      said ms "unit_timeout_ms" Toml.count?] usual.unitTimeout
  java : c.java =
    firstOf [program? vs "UDF_BUILD_JAVAC", said ms "java" Toolchain.ofToml?] usual.java
  scala : c.scala =
    firstOf [program? vs "UDF_BUILD_SCALAC", said ms "scala" Toolchain.ofToml?] usual.scala
  python : c.python =
    ((program? vs "UDF_BUILD_PYTHON").or (said ms "python" Toolchain.ofToml?)).or usual.python
  batchTimeout : c.batchTimeout =
    (said ms "batch_timeout_ms" Toml.count?).or usual.batchTimeout
  workspaceRoot : c.workspaceRoot =
    firstOf [said ms "workspace_root" Toml.text?] usual.workspaceRoot

section

variable {usual base c c' : Config} {ms : Toml.Members} {vs : Variables} {o : BuildOptions}

theorem Layered.unique (h : Layered usual ms vs o c) (h' : Layered usual ms vs o c') : c = c' := by
  cases c
  cases c'
  simp only [Config.mk.injEq]
  exact ⟨h.output.trans h'.output.symm, h.workspaceRoot.trans h'.workspaceRoot.symm,
    h.workers.trans h'.workers.symm, h.unitTimeout.trans h'.unitTimeout.symm,
    h.batchTimeout.trans h'.batchTimeout.symm, h.java.trans h'.java.symm,
    h.scala.trans h'.scala.symm, h.python.trans h'.python.symm⟩

theorem withOptions_unitTimeout (c : Config) (o : BuildOptions) :
    (withOptions c o).unitTimeout = (o.unitTimeoutSecs.map milliseconds).getD c.unitTimeout := by
  unfold withOptions
  cases o.unitTimeoutSecs <;> rfl

theorem layered_withOptions (h : Tabled usual ms base) :
    Layered usual ms vs o (withOptions (base.overlaid vs) o) where
  output := by simp only [withOptions, Config.overlaid, h.output, firstOf_cons, firstOf]
  workers := by simp only [withOptions, Config.overlaid, h.workers, firstOf_cons, firstOf]
  unitTimeout := by
    simp only [withOptions_unitTimeout, Config.overlaid, h.unitTimeout, firstOf_cons, firstOf]
  java := by simp only [withOptions, Config.overlaid, h.java, firstOf_cons, firstOf]
  scala := by simp only [withOptions, Config.overlaid, h.scala, firstOf_cons, firstOf]
  python := by simp only [withOptions, Config.overlaid, h.python, Option.or_assoc]
  batchTimeout := h.batchTimeout
  workspaceRoot := by
    simp only [withOptions, Config.overlaid, h.workspaceRoot, firstOf_cons, firstOf]

end

section

variable {s : Surroundings} {o : BuildOptions}

def fileConfig (s : Surroundings) (o : BuildOptions) : Except Complaint Config :=
  match o.config with
  | some path => (Config.ofFile s.host s.disk path).mapError Complaint.ofConfig
  | none => .ok (Config.standard s.host)

theorem ofFile_eq_ok_iff {h : Host} {d : Disk} {path : String} {c : Config} :
    Config.ofFile h d path = .ok c ↔ ∃ bytes text ms, d.read path = .ok bytes ∧
      Text.decode? bytes = some text ∧ Toml.parse? text = some ms ∧
      (Config.standard h).ofTable? ms = some c := by
  unfold Config.ofFile
  cases hread : d.read path with
  | error e => simp [mapError_error, bind, Except.bind]
  | ok bytes =>
      rw [mapError_ok, ok_bind]
      cases htext : Text.decode? bytes with
      | none => simp [htext, throw, throwThe, MonadExceptOf.throw]
      | some text =>
          cases hparse : Toml.parse? text with
          | none => simp [htext, hparse, throw, throwThe, MonadExceptOf.throw]
          | some ms =>
              cases hbase : (Config.standard h).ofTable? ms <;>
                simp [htext, hparse, hbase, throw, throwThe, MonadExceptOf.throw, pure, Except.pure]

theorem fileSays_of_fileConfig {base : Config} (h : fileConfig s o = .ok base) :
    ∃ ms, FileSays s o ms ∧ Tabled (Config.standard s.host) ms base := by
  unfold fileConfig at h
  cases hpath : o.config with
  | none =>
      rw [hpath] at h
      exact ⟨[], .nothing hpath, Except.ok.inj h ▸ Config.tabled_nil _⟩
  | some path =>
      rw [hpath] at h
      obtain ⟨bytes, text, ms, hread, htext, hparse, hbase⟩ :=
        ofFile_eq_ok_iff.mp (ok_of_mapError h)
      exact ⟨ms, .members hpath hread htext hparse (by rw [hbase]; rfl),
        Config.tabled_of_ofTable? hbase⟩

theorem FileSays.fileConfig {ms : Toml.Members} (h : FileSays s o ms) :
    ∃ base, fileConfig s o = .ok base ∧
      Tabled (Config.standard s.host) ms base := by
  unfold CommandLine.fileConfig
  cases h with
  | nothing hpath => exact ⟨_, by rw [hpath], Config.tabled_nil _⟩
  | members hpath hread htext hparse hkinds =>
      obtain ⟨base, hbase⟩ := Option.isSome_iff_exists.mp hkinds
      have hfile := ofFile_eq_ok_iff.mpr ⟨_, _, _, hread, htext, hparse, hbase⟩
      exact ⟨base, by rw [hpath]; simp only [hfile, mapError_ok], Config.tabled_of_ofTable? hbase⟩

theorem loadConfig_eq_ok_iff_fileConfig {c : Config} :
    loadConfig s o = .ok c ↔ ∃ base, fileConfig s o = .ok base ∧ NumbersRead s.vars ∧
      c = withOptions (base.overlaid s.vars) o ∧ c.validate = .ok () := by
  have hload : loadConfig s o = fileConfig s o >>= fun base =>
      ((base.withVariables s.vars).mapError fun f =>
        (⟨"Invalid UDF_BUILD_* environment", [f.message]⟩ : Complaint)) >>= fun c =>
      ((withOptions c o).validate.mapError Complaint.ofConfig) >>= fun _ =>
      .ok (withOptions c o) := by
    unfold loadConfig fileConfig
    cases o.config <;> rfl
  rw [hload]
  constructor
  · intro h
    obtain ⟨base, hbase, h⟩ := bind_ok h
    obtain ⟨c', hvars, h⟩ := bind_ok h
    obtain ⟨_, hvalid, h⟩ := bind_ok h
    obtain ⟨hnumbers, rfl⟩ := Config.withVariables_eq_ok_iff.mp (ok_of_mapError hvars)
    cases h
    exact ⟨base, hbase, hnumbers, rfl, ok_of_mapError hvalid⟩
  · rintro ⟨base, hbase, hnumbers, rfl, hvalid⟩
    rw [hbase, ok_bind, Config.withVariables_eq_ok_iff.mpr ⟨hnumbers, rfl⟩, mapError_ok, ok_bind,
      hvalid, mapError_ok, ok_bind]

end

/-- A run has a configuration exactly if its file can be read, the numbers of the environment are
numbers, and the configuration that the sources say, each before the next, is one to build with. A
number that an option hides has to be one as well. -/
theorem loadConfig_eq_ok_iff (s : Surroundings) (o : BuildOptions) (c : Config) :
    loadConfig s o = .ok c ↔ ∃ ms, FileSays s o ms ∧ NumbersRead s.vars ∧
      Layered (Config.standard s.host) ms s.vars o c ∧
      c.validate = .ok () := by
  rw [loadConfig_eq_ok_iff_fileConfig]
  constructor
  · rintro ⟨base, hbase, hnumbers, rfl, hvalid⟩
    obtain ⟨ms, hfile, htabled⟩ := fileSays_of_fileConfig hbase
    exact ⟨ms, hfile, hnumbers, layered_withOptions htabled, hvalid⟩
  · rintro ⟨ms, hfile, hnumbers, hlayered, hvalid⟩
    obtain ⟨base, hbase, htabled⟩ := hfile.fileConfig
    exact ⟨base, hbase, hnumbers, hlayered.unique (layered_withOptions htabled), hvalid⟩

def bare (vs : Variables) : Surroundings where
  launch := fun _ _ _ _ => .error .notFound
  host := ⟨"/tmp", 4⟩
  vars := vs
  disk := ⟨.empty, []⟩
  batch := ""
  now := ""

/-- A variable that is set to something else than text counts as not set, where a number is due. -/
theorem loadConfig_ignores_no_text :
    loadConfig (bare [("UDF_BUILD_WORKERS", [255])]) ⟨"batch.json", none, none, none, none, false⟩ =
        .ok (Config.standard ⟨"/tmp", 4⟩) ∧
      ∀ value n, Text.utf8 value = [255] → ¬ Text.Numeral value n := by
  refine ⟨ok_of_toOption (by decide +kernel), fun value _ hvalue => ?_⟩
  have hnone : Text.decode? [255] = none := by decide +kernel
  rw [← hvalue, Text.decode?_utf8] at hnone
  cases hnone

example : (loadConfig (bare [("UDF_BUILD_WORKERS", Text.utf8 "many")])
    ⟨"batch.json", none, none, some 3, none, false⟩).toOption = none := by
  decide +kernel

example : (loadConfig
    (bare [("UDF_BUILD_JAVAC", Text.utf8 "ecj"), ("UDF_BUILD_WORKERS", Text.utf8 "+2")])
    ⟨"batch.json", none, none, none, some (Nat.pow 2 60), false⟩).toOption.map
      (fun c => (c.java, c.workers, c.unitTimeout)) =
    some (⟨"ecj", []⟩, 2, Nat.pow 2 64 - 1) := by
  decide +kernel

end CommandLine

end FunctionJar
