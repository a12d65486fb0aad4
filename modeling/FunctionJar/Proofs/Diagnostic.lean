import FunctionJar.Proofs.Text.Boundary
import FunctionJar.Proofs.Text.Trim
import FunctionJar.Toolchain

namespace FunctionJar

theorem Text.Kept.ne_nil {limit : Nat} {s t : List Char} (h : Kept limit s t) (hs : s ≠ []) :
    t ≠ [] := by
  cases h with
  | whole => exact hs
  | cut => simp

namespace Toolchain

inductive Told (program : String) (o : Output) (err out : List Char) : String → Prop
  | errors {t : List Char} (herr : err ≠ []) (hkept : Text.Kept 8192 err t) :
      Told program o err out (String.ofList t)
  | output {t : List Char} (herr : err = []) (hout : out ≠ []) (hkept : Text.Kept 8192 out t) :
      Told program o err out (String.ofList t)
  | ending (herr : err = []) (hout : out = []) :
      Told program o err out s!"{program} exited with {statusText o.ending}"

theorem Told.ne_empty {program : String} {o : Output} {err out : List Char} {text : String}
    (h : Told program o err out text) : text ≠ "" := by
  have hlist {t : List Char} (ht : t ≠ []) : String.ofList t ≠ "" := by
    rwa [ne_eq, String.ofList_eq_empty_iff]
  cases h with
  | errors herr hkept => exact hlist (hkept.ne_nil herr)
  | output _ hout hkept => exact hlist (hkept.ne_nil hout)
  | ending =>
      intro hempty
      have hmiddle := (String.append_eq_empty_iff.mp (String.append_eq_empty_iff.mp hempty).1).2
      exact absurd hmiddle (by decide)

theorem told_diagnostic (program : String) (o : Output) :
    Told program o (Text.trim (Text.decodeLossy o.err)) (Text.trim (Text.decodeLossy o.out))
      (diagnostic program o) := by
  unfold diagnostic
  simp only [List.map_cons, List.map_nil]
  cases herr : Text.trim (Text.decodeLossy o.err) with
  | cons c err => exact .errors (by simp) (Text.kept_truncate longestDiagnostic _)
  | nil =>
      cases hout : Text.trim (Text.decodeLossy o.out) with
      | cons c out => exact .output rfl (by simp) (Text.kept_truncate longestDiagnostic _)
      | nil => exact .ending rfl rfl

/-- The search for a place to cut always comes to one, and no more is cut than has to be, for every
text and every limit. What is told about a failed program is never empty and is cut like that. -/
theorem diagnostic_kept :
    (∀ limit s, Text.cut? limit s = some (Text.truncate limit s) ∧
      Text.Kept limit s (Text.truncate limit s)) ∧
    ∀ program o, diagnostic program o ≠ "" ∧ ∃ err out, Text.Trimmed (Text.decodeLossy o.err) err ∧
      Text.Trimmed (Text.decodeLossy o.out) out ∧
        Told program o err out (diagnostic program o) := by
  constructor
  · intro limit s
    exact ⟨Text.cut?_eq_some limit s, Text.kept_truncate limit s⟩
  · intro program o
    have htold := told_diagnostic program o
    exact ⟨htold.ne_empty, _, _, Text.trimmed_trim _, Text.trimmed_trim _, htold⟩

end Toolchain

end FunctionJar
