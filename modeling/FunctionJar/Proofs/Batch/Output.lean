import FunctionJar.Proofs.Archive.Replacement
import FunctionJar.Proofs.Batch.Extension
import FunctionJar.Proofs.Execution.Surroundings

namespace FunctionJar

open Archive (Artifact Stage Temporary)

namespace Archive

def Assembled.archive? (p : Assembled) : Option Artifact := p.outcome.toOption.join

theorem Assembled.archive?_eq_some {p : Assembled} {a : Artifact} :
    p.archive? = some a ↔ p.outcome = .ok (some a) := by
  rcases hout : p.outcome with fault | _ | b <;> simp [archive?, hout, Except.toOption]

variable {refusals : Refusals} {d : Disk} {path : String} {us : List CompiledUnit}

theorem assemble_cases (refusals : Refusals) (d : Disk) (path : String) (us : List CompiledUnit) :
    ((∀ a, (assemble refusals d path us).outcome ≠ .ok (some a)) ∧
        (∀ x ∈ (assemble refusals d path us).disks, Stage d x) ∧
          d.Widens (assemble refusals d path us).disk) ∨
      ((assemble refusals d path us).outcome =
          .ok (some (.ofBytes path (classNames us) (Zip.write (contents us)))) ∧
        ∃ place, (∃ x ∈ (assemble refusals d path us).disks,
            x.place (Path.bare path) = .ok place) ∧
          (∀ x ∈ (assemble refusals d path us).disks,
            Stage d x ∨ x = (assemble refusals d path us).disk) ∧
          ∀ q, (assemble refusals d path us).disk.root.leaf? q =
            if q = place then some (.file (Zip.write (contents us)) false)
            else d.root.leaf? q) := by
  have hfirst : Stage d d := .wide (.refl d)
  cases hempty : us.isEmpty with
  | true =>
      have hskip : assemble refusals d path us = ⟨[d], d, [Log.archiveSkipped path], .ok none⟩ := by
        rw [assemble, if_pos hempty]
      rw [hskip]
      exact .inl ⟨nofun, fun x hx => List.mem_singleton.mp hx ▸ hfirst, .refl d⟩
  | false =>
      have hsettles := settles_replace refusals d path (Zip.pieces (contents us))
        (Zip.fits (contents us))
      rw [assemble, if_neg (by simp [hempty])]
      simp only
      generalize replace refusals d path (Zip.pieces (contents us)) (Zip.fits (contents us)) = p
        at hsettles
      rcases hsettles with ⟨hstop, hway, hlast⟩ | ⟨hdone, -, place, ⟨x, hx, hplace⟩, hway, hleaf⟩
      · obtain ⟨fault, hfault⟩ := Option.ne_none_iff_exists'.mp hstop
        simp only [hfault]
        refine .inl ⟨nofun, fun x hx => ?_, hlast⟩
        rcases List.mem_cons.mp hx with rfl | hx
        · exact hfirst
        · exact hway x hx
      · simp only [hdone]
        refine .inr ⟨trivial, place, ⟨x, List.mem_cons_of_mem _ hx, hplace⟩, fun x hx => ?_, hleaf⟩
        rcases List.mem_cons.mp hx with rfl | hx
        · exact .inl hfirst
        · exact hway x hx

end Archive

namespace Batch

open Execution (Returns Spares)

variable {cfg : Config} {r : Registry} {s : Session} {d : Disk} {ds : List Definition}
  {places : List String → Prop}

structure Assembles (cfg : Config) (s : Session) (d : Disk) (us : List CompiledUnit) (b : Batch) :
    Prop where
  disks : b.disks = (Archive.assemble s.refusals d cfg.output us).disks
  disk : b.disk = (Archive.assemble s.refusals d cfg.output us).disk
  archive : ∀ archive, (Archive.assemble s.refusals d cfg.output us).outcome = .ok archive ↔
    ∃ o, b.outcome = .ok o ∧ o.archive = archive
  success : ∀ o, b.outcome = .ok o → o.report.success = Archive.classNames us

theorem assembles_finish (cfg : Config) (s : Session) (ns : List Normalized)
    (e : Execution.State) :
    Assembles cfg s e.disk (tally ns e.results).units (finish cfg s ns e) := by
  unfold finish
  simp only
  split
  · next fault hfault => exact ⟨rfl, rfl, fun archive => by simp [hfault], nofun⟩
  · next archive hassemble =>
      refine ⟨rfl, rfl, fun other => ?_, fun o ho => Except.ok.inj ho ▸ rfl⟩
      rw [hassemble]
      constructor
      · intro h
        exact ⟨_, rfl, Except.ok.inj h⟩
      · rintro ⟨o, ho, hother⟩
        rw [← hother, ← Except.ok.inj ho]

theorem build_cases (cfg : Config) (r : Registry) (s : Session) (d : Disk) (ds : List Definition) :
    (∃ error, (build cfg r s d ds).outcome = .error error ∧
        (build cfg r s d ds).disks = [(build cfg r s d ds).disk] ∧
          ((build cfg r s d ds).disk = d ∨ ∃ e, Returns cfg.execution r s.cancelAt d (units ds) e ∧
            (build cfg r s d ds).disk = e.state.disk)) ∨
      ∃ e us, Returns cfg.execution r s.cancelAt d (units ds) e ∧
        Assembles cfg s e.state.disk us (build cfg r s d ds) := by
  have hreturns := Execution.returns_run cfg.execution r s.cancelAt d (units ds)
  unfold build
  split
  · exact .inl ⟨_, rfl, rfl, .inl rfl⟩
  · simp only
    split
    · exact .inl ⟨_, rfl, rfl, .inr ⟨_, hreturns, rfl⟩⟩
    · have hfinish := assembles_finish cfg s (Definition.normalize ds)
        (Execution.run cfg.execution r s.cancelAt d (units ds)).state
      exact .inr ⟨_, _, hreturns, hfinish.disks, hfinish.disk, hfinish.archive, hfinish.success⟩

/-- No archive has been written, and no file has changed, not even for a time. A path that leads to
where it led before reads the same. -/
structure Untouched (d : Disk) (places : List String → Prop) (b : Batch) : Prop where
  leaf : ∀ q, places q → b.disk.root.leaf? q = d.root.leaf? q
  way : ∀ q, places q → ¬ Temporary q → ∀ x ∈ b.disks, x.root.leaf? q = d.root.leaf? q
  read : ∀ path q, places q → d.resolve path = .ok q → b.disk.resolve path = .ok q →
    (b.disk.read path).toOption = (d.read path).toOption

/-- A file is at `place` now, which the output path leads to, and all else is as it was. What was at
any place on the way is what was there before, or all of that file. -/
structure Replaced (d : Disk) (places : List String → Prop) (output : String) (bytes : Text.Bytes)
    (place : List String) (b : Batch) : Prop where
  leads : ∃ x ∈ b.disks, x.place (Path.bare output) = .ok place
  file : b.disk.root.leaf? place = some (.file bytes false)
  read : ∀ path, b.disk.resolve path = .ok place → b.disk.read path = .ok bytes
  leaf : ∀ q, places q → q ≠ place → b.disk.root.leaf? q = d.root.leaf? q
  way : ∀ q, places q → ¬ Temporary q → ∀ x ∈ b.disks, x.root.leaf? q = d.root.leaf? q ∨
    q = place ∧ x.root.leaf? q = some (.file bytes false)

variable {e : Disk} {us : List CompiledUnit} {b : Batch}

theorem Untouched.of_leaf (hleaf : ∀ q, places q → b.disk.root.leaf? q = d.root.leaf? q)
    (hway : ∀ q, places q → ¬ Temporary q → ∀ x ∈ b.disks, x.root.leaf? q = d.root.leaf? q) :
    Untouched d places b := by
  refine ⟨hleaf, hway, fun path q hq hbefore hafter => ?_⟩
  rw [Disk.read_toOption hbefore, Disk.read_toOption hafter, hleaf q hq]

theorem read_of_leaf? {bytes : Text.Bytes} {path : String} {place : List String}
    (hleaf : d.root.leaf? place = some (.file bytes false)) (h : d.resolve path = .ok place) :
    d.read path = .ok bytes := by
  have hread := Disk.read_toOption h
  rw [hleaf] at hread
  cases hcontent : d.read path with
  | error e => rw [hcontent] at hread; cases hread
  | ok content => rw [hcontent] at hread; exact congrArg Except.ok (Option.some.inj hread)

theorem Assembles.untouched (h : Assembles cfg s e us b)
    (hleaf : ∀ q, places q → e.root.leaf? q = d.root.leaf? q)
    (hnone : ∀ o, b.outcome = .ok o → o.archive = none) : Untouched d places b := by
  rcases Archive.assemble_cases s.refusals e cfg.output us with ⟨-, hway, hlast⟩ | ⟨harchive, -⟩
  · rw [← h.disks] at hway
    rw [← h.disk] at hlast
    refine .of_leaf (fun q hq => (hlast.leaf q).trans (hleaf q hq)) fun q hq htemp x hx => ?_
    exact ((hway x hx).leaf? htemp).trans (hleaf q hq)
  · obtain ⟨o, ho, hsome⟩ := (h.archive _).mp harchive
    simp [hnone o ho] at hsome

theorem Assembles.replaced (h : Assembles cfg s e us b)
    (hleaf : ∀ q, places q → e.root.leaf? q = d.root.leaf? q) {o : BuildOutput} {a : Artifact}
    (ho : b.outcome = .ok o) (ha : o.archive = some a) :
    a = .ofBytes cfg.output (Archive.classNames us) (Zip.write (Archive.contents us)) ∧
      ∃ place, Replaced d places cfg.output (Zip.write (Archive.contents us)) place b := by
  have hassemble := (h.archive (some a)).mpr ⟨o, ho, ha⟩
  rcases Archive.assemble_cases s.refusals e cfg.output us with
    ⟨hnot, -⟩ | ⟨harchive, place, hleads, hway, hlast⟩
  · exact absurd hassemble (hnot a)
  · rw [← h.disks] at hway hleads
    rw [← h.disk] at hway hlast
    have hfile : b.disk.root.leaf? place = some (.file (Zip.write (Archive.contents us)) false) := by
      rw [hlast, if_pos rfl]
    refine ⟨Option.some.inj (Except.ok.inj (hassemble.symm.trans harchive)), place, hleads, hfile,
      fun path hpath => read_of_leaf? hfile hpath, ?_, ?_⟩
    · intro q hq hne
      rw [hlast, if_neg hne, hleaf q hq]
    · intro q hq htemp x hx
      rcases hway x hx with hstage | rfl
      · exact .inl ((hstage.leaf? htemp).trans (hleaf q hq))
      · by_cases hplace : q = place
        · exact .inr ⟨hplace, hplace ▸ hfile⟩
        · exact .inl (by rw [hlast, if_neg hplace, hleaf q hq])

structure AtOnce (cfg : Config) (r : Registry) (s : Session) (d : Disk) (ds : List Definition)
    (places : List String → Prop) : Prop where
  execution : ∀ e, Returns cfg.execution r s.cancelAt d (units ds) e →
    ∀ q, places q → e.state.disk.root.leaf? q = d.root.leaf? q
  unwritten : (∀ o, (build cfg r s d ds).outcome = .ok o → o.archive = none) →
    Untouched d places (build cfg r s d ds)
  written : ∀ o a, (build cfg r s d ds).outcome = .ok o → o.archive = some a → ∃ us place,
    o.report.success = Archive.classNames us ∧
      a = .ofBytes cfg.output (Archive.classNames us) (Zip.write (Archive.contents us)) ∧
      Replaced d places cfg.output (Zip.write (Archive.contents us)) place (build cfg r s d ds)

theorem archive_changes_at_once (hspares : Spares cfg.execution r d (units ds) places) :
    AtOnce cfg r s d ds places where
  execution := fun e he q hq => he.leaf_eq hspares hq
  unwritten := by
    intro hnone
    rcases build_cases cfg r s d ds with ⟨error, -, hdisks, hdisk⟩ | ⟨e, us, he, hassembles⟩
    · have hleaf : ∀ q, places q → (build cfg r s d ds).disk.root.leaf? q = d.root.leaf? q := by
        intro q hq
        rcases hdisk with hsame | ⟨e, he, hdisk⟩
        · rw [hsame]
        · rw [hdisk, he.leaf_eq hspares hq]
      refine .of_leaf hleaf fun q hq _ x hx => ?_
      rw [hdisks] at hx
      rw [List.mem_singleton.mp hx, hleaf q hq]
    · exact hassembles.untouched (fun q hq => he.leaf_eq hspares hq) hnone
  written := by
    intro o a ho ha
    rcases build_cases cfg r s d ds with ⟨error, herror, -⟩ | ⟨e, us, he, hassembles⟩
    · simp [herror] at ho
    · obtain ⟨hartifact, place, hreplaced⟩ :=
        hassembles.replaced (fun q hq => he.leaf_eq hspares hq) ho ha
      exact ⟨us, place, hassembles.success o ho, hartifact, hreplaced⟩

theorem assembles_of_runFor {n : Nat} {xs : List UnitResult} {P : Disk → Bool}
    (hvalid : cfg.validate = .ok ()) (hslots : cfg.execution.slots ≤ Execution.maxSlots)
    (hcancel : s.cancelAt = none)
    (hall : (units ds).filter (fun u => !xs.any (·.index == u.index)) = [])
    (h : (Execution.runFor cfg.execution r none n (.init d (units ds))).any fun e =>
      e.fault = none ∧ e.state.results = xs ∧ P e.state.disk) :
    ∃ e, Returns cfg.execution r s.cancelAt d (units ds) e ∧ P e.state.disk ∧
      Assembles cfg s e.state.disk (tally (Definition.normalize ds) xs).units
        (build cfg r s d ds) := by
  obtain ⟨e, hrun, hxs, hdisk⟩ := Execution.run_of_runFor hslots hall h
  rw [← hcancel] at hrun
  have hreturns := Execution.returns_run cfg.execution r s.cancelAt d (units ds)
  have hfinish := assembles_finish cfg s (Definition.normalize ds) e
  rw [hxs] at hfinish
  rw [hrun] at hreturns
  rw [units] at hrun
  refine ⟨_, hreturns, hdisk, ?_⟩
  simp only [build, hvalid, hrun]
  exact ⟨hfinish.disks, hfinish.disk, hfinish.archive, hfinish.success⟩

theorem units_tally_singleton (ns : List Normalized) (x : UnitResult)
    (h : ns.filterMap Normalized.result? = []) : (tally ns [x]).units =
      (Archive.rejectFrom Sha256.digest [] [x]).filterMap (·.outcome.unit?) := by
  have hsorted : UnitResult.Sorted (results ns [x]) := by
    rw [results, h, List.nil_append]
    exact List.pairwise_singleton _ _
  rw [tally_eq, Archive.rejectConflicts, Archive.rejectConflictsBy,
    UnitResult.sort_of_sorted hsorted, results, h, List.nil_append]

def alone : List Definition := [.named "p.A" "java" "one"]

def aloneUnit : CompiledUnit := ⟨"p.A", .java, [⟨"p/H", Text.utf8 "one"⟩]⟩

def stuck : Session := ⟨"batch", none, fun n => if n = 9 then some .busy else none⟩

theorem roomy_alone : Execution.Roomy echoConfig.execution ["ws"] [] echoDisk (units alone) :=
  ⟨ground_echoDisk, by decide +kernel⟩

theorem allConfined_alone : Execution.AllConfined echoConfig.execution echoing ["ws"] echoDisk
    (units alone) := by
  refine Execution.allConfined_of_quiet fun u path d e => ?_
  simp [Registry.dispatch, echoing, Registry.checked]

theorem assembles_alone (hcancel : s.cancelAt = none) :
    Assembles echoConfig s echoDisk [aloneUnit] (build echoConfig echoing s echoDisk alone) := by
  have hrun : (Execution.runFor echoConfig.execution echoing none 10
      (.init echoDisk (units alone))).any fun e => e.fault = none ∧
        e.state.results = [⟨0, .compiled aloneUnit, 3⟩] ∧ true := by
    decide +kernel
  obtain ⟨e, hreturns, -, hbuild⟩ := assembles_of_runFor (P := fun _ => true)
    (by decide +kernel) (by decide +kernel) hcancel rfl hrun
  rw [hreturns.disk_eq roomy_alone allConfined_alone, units_tally_singleton _ _ rfl] at hbuild
  exact hbuild

theorem outcome_stuck (o : BuildOutput) :
    (build echoConfig echoing stuck echoDisk alone).outcome ≠ .ok o := by
  intro ho
  have hassemble := ((assembles_alone (s := stuck) rfl).archive o.archive).mpr ⟨o, ho, rfl⟩
  have hrefused :
      (Archive.assemble stuck.refusals echoDisk "/udf.jar" [aloneUnit]).outcome.isOk = false := by
    decide +kernel
  rw [show "/udf.jar" = echoConfig.output from rfl, hassemble] at hrefused
  cases hrefused

theorem archive_changes_at_once_stuck :
    (∀ o, (build echoConfig echoing stuck echoDisk alone).outcome ≠ .ok o) ∧
      (build echoConfig echoing stuck echoDisk alone).disk.root.leaf? ["udf.jar"] =
        some (.file [1] false) ∧
      ∃ o a us, (build echoConfig echoing mixedSession echoDisk alone).outcome = .ok o ∧
        o.archive = some a ∧ a = .ofBytes "/udf.jar" ["p.A"] (Zip.write (Archive.contents us)) ∧
          (build echoConfig echoing mixedSession echoDisk alone).disk.root.leaf? ["udf.jar"] =
            some (.file (Zip.write (Archive.contents us)) false) := by
  have hspares := Execution.spares_of_confined roomy_alone allConfined_alone
  have hfails := archive_changes_at_once (s := stuck) hspares
  have hworks := archive_changes_at_once (s := mixedSession) hspares
  have hfree := assembles_alone (s := mixedSession) rfl
  have hkept := (hfails.unwritten fun o ho => absurd ho (outcome_stuck o)).leaf ["udf.jar"]
    (by decide +kernel)
  refine ⟨outcome_stuck, hkept, ?_⟩
  have hsome : (Archive.assemble .none echoDisk "/udf.jar" [aloneUnit]).archive?.any
      (·.classes = ["p.A"]) := by
    decide +kernel
  have hleads : (Archive.assemble .none echoDisk "/udf.jar" [aloneUnit]).disks.all fun x =>
      (x.place (Path.bare "/udf.jar")).toOption = some ["udf.jar"] := by
    decide +kernel
  obtain ⟨a, hassemble, hclasses⟩ := (Option.any_eq_true _ _).mp hsome
  obtain ⟨o, ho, ha⟩ :=
    (hfree.archive (some a)).mp (Archive.Assembled.archive?_eq_some.mp hassemble)
  obtain ⟨us, place, -, hartifact, hreplaced⟩ := hworks.written o a ho ha
  obtain ⟨x, hx, hplace⟩ := hreplaced.leads
  rw [hfree.disks] at hx
  have hsame : place = ["udf.jar"] := by
    have hread := of_decide_eq_true (List.all_eq_true.mp hleads x hx)
    rw [show "/udf.jar" = echoConfig.output from rfl, hplace] at hread
    exact Option.some.inj hread
  have hnames : Archive.classNames us = ["p.A"] := by
    rw [← of_decide_eq_true hclasses, hartifact, Artifact.ofBytes]
  exact ⟨o, a, us, ho, ha, hnames ▸ hartifact, hsame ▸ hreplaced.file⟩

/-- What would hold if the output path led to one and the same place at all times. -/
def ReadsAtOnce (cfg : Config) (d : Disk) (b : Batch) : Prop :=
  ((∀ o, b.outcome = .ok o → o.archive = none) →
      (b.disk.read cfg.output).toOption = (d.read cfg.output).toOption) ∧
    ∀ o a, b.outcome = .ok o → o.archive = some a → ∀ x ∈ b.disks,
      (x.read cfg.output).toOption = (d.read cfg.output).toOption ∨
        (x.read cfg.output).toOption = (b.disk.read cfg.output).toOption

theorem not_readsAtOnce (cfg : Config) (r : Registry) (d : Disk) (f : Failure)
    (hvalid : cfg.validate = .ok ()) (hslots : cfg.execution.slots ≤ Execution.maxSlots)
    (h : (Execution.runFor cfg.execution r none 10
        (.init d (units [.named "p.A" "java" "panic"]))).any fun e =>
      e.fault = none ∧ e.state.results = [⟨0, .failed ⟨"p.A", f⟩, 0⟩] ∧
        decide ((e.state.disk.read cfg.output).toOption ≠ (d.read cfg.output).toOption) = true) :
    ¬ ReadsAtOnce cfg d (build cfg r mixedSession d [.named "p.A" "java" "panic"]) := by
  obtain ⟨e, -, hdisk, hbuild⟩ := assembles_of_runFor (s := mixedSession)
    (P := fun x => decide ((x.read cfg.output).toOption ≠ (d.read cfg.output).toOption))
    hvalid hslots rfl rfl h
  rw [units_tally_singleton _ _ rfl] at hbuild
  obtain ⟨o, ho, harchive⟩ := (hbuild.archive none).mp rfl
  rintro ⟨hunwritten, -⟩
  have hread := hunwritten fun o' ho' => by
    obtain rfl := Except.ok.inj (ho'.symm.trans ho)
    exact harchive
  rw [hbuild.disk] at hread
  exact of_decide_eq_true hdisk hread

def hiddenConfig : Config := { mixedConfig with output := "work/../udf.jar" }

def hiddenDisk : Disk := ⟨.folder [("udf.jar", .file [1] false)], []⟩

/-- A path does not tell what becomes of a file: it leads elsewhere once a folder is there that was
missing. -/
theorem output_path_reads_something_else : ¬ ReadsAtOnce hiddenConfig hiddenDisk
    (build hiddenConfig mixedRegistry mixedSession hiddenDisk [.named "p.A" "java" "panic"]) :=
  not_readsAtOnce hiddenConfig mixedRegistry hiddenDisk ⟨.panicked, "compiler panicked"⟩
    (by decide +kernel) (by decide +kernel) (by decide +kernel)

end Batch

end FunctionJar
