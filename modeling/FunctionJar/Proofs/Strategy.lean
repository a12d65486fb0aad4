import FunctionJar.Proofs.Naming
import FunctionJar.Registry

namespace FunctionJar

namespace Job

variable {α β : Type} {c : CompiledUnit} {d : Disk} {t t' : Trace}

/-- A job that comes to a result, from one trace to another. -/
def Gives (job : Job α) (t : Trace) (a : α) (t' : Trace) : Prop :=
  job.run.run t = (.ok a, t')

theorem gives_of_compiled {job : Job CompiledUnit} (h : (job.work d).finish = .compiled c) :
    ∃ t, job.Gives (.start d) c t := by
  unfold work at h
  split at h
  · next u t hrun =>
      cases h
      exact ⟨t, hrun⟩
  all_goals cases h

theorem Gives.bind {job : Job α} {f : α → Job β} {b : β} (h : (job >>= f).Gives t b t') :
    ∃ a t₁, job.Gives t a t₁ ∧ (f a).Gives t₁ b t' := by
  unfold Gives at h ⊢
  simp only [ExceptT.run_bind, StateT.run_bind] at h
  generalize hjob : job.run.run t = result at h
  obtain ⟨_ | a, t₁⟩ := result
  · cases h
  · exact ⟨a, t₁, rfl, h⟩

theorem Gives.pure {a b : α} (h : (Pure.pure a : Job α).Gives t b t') : a = b := by
  cases h
  rfl

theorem not_gives_fail {f : Failure} {a : α} : ¬ (fail f : Job α).Gives t a t' := fun h => by
  cases h

end Job

open Job

variable {run : Launcher} {t t' : Trace} {u : SourceUnit} {workspace : String} {c : CompiledUnit}

theorem Jvm.entry_of_compileSource {language : Language} {tool : Toolchain} {source : String}
    (h : (compileSource run language tool u source workspace).Gives t c t') :
    ∃ e ∈ c.entries, e.path = classPath u.className := by
  unfold compileSource at h
  obtain ⟨-, t₁, -, h⟩ := h.bind
  obtain ⟨-, t₂, -, h⟩ := h.bind
  obtain ⟨-, t₃, -, h⟩ := h.bind
  obtain ⟨output, t₄, -, h⟩ := h.bind
  obtain ⟨-, t₅, -, h⟩ := h.bind
  obtain ⟨-, t₆, -, h⟩ := h.bind
  obtain ⟨entries, t₇, -, h⟩ := h.bind
  simp only at h
  split at h
  · obtain ⟨_, _, hfail, -⟩ := h.bind
    exact absurd hfail not_gives_fail
  · next hany =>
      rw [← h.pure]
      simpa using hany

theorem Python.entries_of_compile {interpreter : Option Toolchain}
    (h : (compile run interpreter u workspace).Gives t c t') :
    ∃ content, c.entries = [⟨entryPath u.className, content⟩] := by
  unfold compile at h
  obtain ⟨-, t₁, -, h⟩ := h.bind
  cases interpreter with
  | none => exact ⟨_, congrArg CompiledUnit.entries h.pure.symm⟩
  | some tool =>
      simp only at h
      obtain ⟨-, t₂, -, h⟩ := h.bind
      exact ⟨_, congrArg CompiledUnit.entries h.pure.symm⟩

theorem Sql.entry_of_compile {java : Toolchain} (h : (compile run java u workspace).Gives t c t') :
    ∃ e ∈ c.entries, e.path = Jvm.classPath u.className := by
  obtain ⟨f, t₁, -, h⟩ := h.bind
  obtain ⟨compiled, t₂, hcompiled, h⟩ := h.bind
  have hentry := Jvm.entry_of_compileSource hcompiled
  rw [← h.pure]
  exact hentry

namespace Registry

theorem finish_of_checked {w : Work} (h : (checked u w).finish = .compiled c) :
    w.finish = .compiled c := by
  unfold checked at h
  split at h
  · split at h
    · cases h
    · exact h
  · exact h

theorem entry_of_builtin {java scala : Toolchain} {python : Option Toolchain} {d : Disk}
    (h : ((builtin run java scala python).dispatch u workspace d).finish = .compiled c) :
    ∃ e ∈ c.entries, e.path = u.dialect.primaryPath u.className := by
  unfold dispatch at h
  split at h
  · cases h
  · next s hs =>
      have hfinish := finish_of_checked h
      cases hdialect : u.dialect <;> rw [hdialect] at hs <;> cases hs <;>
        obtain ⟨t, hgives⟩ := gives_of_compiled hfinish
      case python =>
        obtain ⟨content, hentries⟩ := Python.entries_of_compile hgives
        exact ⟨_, by rw [hentries]; exact List.mem_singleton_self _, rfl⟩
      case sql => exact Sql.entry_of_compile hgives
      all_goals exact Jvm.entry_of_compileSource hgives

end Registry

end FunctionJar
