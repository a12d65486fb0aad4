import FunctionJar.Proofs.Python.Header

namespace FunctionJar.Python

open Source Text

variable {u : SourceUnit} {part s t w : List Char} {c : Char}

theorem contains_iff : contains part s = true ↔ part <:+: s := by
  induction s with
  | nil => simp [contains]
  | cons c s ih => simp [contains, ih, List.infix_cons_iff]

theorem infix_split (hc : c ∉ part) : part <:+: s ++ c :: t ↔ part <:+: s ∨ part <:+: t := by
  have hempty : ∀ {v : List Char}, c ∉ v → v <+: c :: t → v = [] := by
    intro v hv hstart
    obtain rfl | ⟨v, rfl, -⟩ := List.prefix_cons_iff.mp hstart
    · rfl
    · simp at hv
  rw [List.infix_append_iff, List.infix_cons_iff]
  constructor
  · rintro (hs | (hhead | ht) | ⟨v, v', rfl, hsuffix, hhead⟩)
    · exact .inl hs
    · exact .inl (hempty hc hhead ▸ List.nil_infix)
    · exact .inr ht
    · obtain rfl := hempty (fun hmem => hc (List.mem_append_right _ hmem)) hhead
      rw [List.append_nil]
      exact .inl hsuffix.isInfix
  · rintro (hs | ht)
    · exact .inl hs
    · exact .inr (.inl (.inr ht))

theorem infix_append_blanks (hne : part ≠ []) (hpart : ∀ c ∈ part, isBlank c = false)
    (hw : ∀ c ∈ w, isBlank c = true) : part <:+: s ++ w ↔ part <:+: s := by
  induction w generalizing s with
  | nil => rw [List.append_nil]
  | cons c w ih =>
      obtain ⟨hc, hw⟩ := List.forall_mem_cons.mp hw
      have hmem : c ∉ part := fun hmem => by simp [hpart c hmem] at hc
      have hblanks : ¬ part <:+: w := fun hinfix => hne (by simpa using (ih hw (s := [])).mp hinfix)
      rw [infix_split hmem, or_iff_left hblanks]

theorem exportName_plain : exportName.toList ≠ [] ∧ ∀ c ∈ exportName.toList, isBlank c = false := by
  have hseen : exportName.toList.all fun c => !isBlank c := rfl
  exact ⟨by decide, by simpa using hseen⟩

theorem infix_blanked {ps qs : List Piece} (h : Trails ps qs) :
    exportName.toList <:+: ps.flatMap Piece.blanked ↔
      exportName.toList <:+: qs.flatMap Piece.blanked := by
  obtain ⟨w, hsplit, hw⟩ := h
  obtain ⟨hne, hplain⟩ := exportName_plain
  rw [hsplit, infix_append_blanks hne hplain hw]

theorem infix_wrapped {n : Nat} {name : List Char} : exportName.toList <:+:
      List.replicate n ' ' ++ '\n' :: s ++ exports u name ++ ['\n'] ↔
    (exportName.toList <:+: u.code.toList → exportName.toList <:+: s) := by
  obtain ⟨hne, hplain⟩ := exportName_plain
  have hfeed : '\n' ∉ exportName.toList := by decide
  have hspaces : ¬ exportName.toList <:+: List.replicate n ' ' := by
    have hblank : ∀ c ∈ List.replicate n ' ', isBlank c = true := fun c hc => by
      rw [List.eq_of_mem_replicate hc]
      rfl
    have hskip := infix_append_blanks (s := []) hne hplain hblank
    exact fun hinfix => hne (List.infix_nil.mp (hskip.mp hinfix))
  rw [infix_append_blanks hne hplain (by simp; rfl)]
  unfold exports
  split
  · next hmentioned =>
      rw [List.append_nil, infix_split hfeed, or_iff_right hspaces, imp_iff_right]
      exact contains_iff.mp hmentioned
  · next hsilent =>
      refine iff_of_true ?_ fun hmentioned => absurd (contains_iff.mpr hmentioned) hsilent
      exact ⟨List.replicate n ' ' ++ '\n' :: s ++ "\n\n".toList,
        " = [\"".toList ++ name ++ "\"]".toList, by simp [exportName]⟩

/-- A module declares an export if and only if its source does not speak of one, or speaks of it in
code. -/
theorem declares_export_iff (hname : ClassName.check u.className = .ok ())
    (hcode : validate u.code u.simpleName = .ok ()) (htask : '\n' ∉ u.task.toList) :
    ∃ shown out, scan .python u.code.toList = .ok shown ∧ scan .python (wrap u).toList = .ok out ∧
      (exportName.toList <:+: out ↔
        (exportName.toList <:+: u.code.toList → exportName.toList <:+: shown)) := by
  obtain ⟨ps, hreads, hnested⟩ := exists_reads_of_validate hcode
  obtain ⟨qs, hqs, hqsnested, htrails⟩ := hreads.trimmed hnested
  refine ⟨_, _, scan_eq_ok_iff.mpr ⟨ps, hreads, hnested, rfl⟩,
    scan_wrap hname htask hqs hqsnested, ?_⟩
  rw [infix_wrapped, infix_blanked htrails]

/-- The source declares an export in code, and speaks of it in a comment. -/
def exporting : SourceUnit :=
  ⟨0, "t", "p.f", .python, "__all__ = ['f']  # __all__\ndef f(x):\n    return x\n\n"⟩

theorem declares_export_iff_exporting : ClassName.check exporting.className = .ok () ∧
    validate exporting.code exporting.simpleName = .ok () ∧ '\n' ∉ exporting.task.toList ∧
    ∃ out, scan .python (wrap exporting).toList = .ok out ∧ exportName.toList <:+: out := by
  have hname : ClassName.check exporting.className = .ok () := ok_of_toOption (by decide +kernel)
  have hcode : validate exporting.code exporting.simpleName = .ok () :=
    ok_of_toOption (by decide +kernel)
  have htask : '\n' ∉ exporting.task.toList := by decide
  obtain ⟨shown, out, hshown, hout, hiff⟩ := declares_export_iff hname hcode htask
  refine ⟨hname, hcode, htask, out, hout, hiff.mpr fun _ => ?_⟩
  have hscan : scan .python exporting.code.toList =
      .ok "__all__ = [' ']           \ndef f(x):\n    return x\n\n".toList :=
    ok_of_toOption (by decide +kernel)
  obtain rfl := Except.ok.inj (hscan.symm.trans hshown)
  exact contains_iff.mp (by decide +kernel)

def remarked : SourceUnit :=
  ⟨0, "t", "p.f", .python, "def f(x):\n    return x  # no __all__\n"⟩

theorem comment_hides_export : ClassName.check remarked.className = .ok () ∧
    validate remarked.code remarked.simpleName = .ok () ∧
    scan .python (wrap remarked).toList =
      .ok "                   \ndef f(x):\n    return x              \n".toList ∧
    ¬ exportName.toList <:+:
      "                   \ndef f(x):\n    return x              \n".toList := by
  refine ⟨ok_of_toOption (by decide +kernel), ok_of_toOption (by decide +kernel),
    ok_of_toOption (by decide +kernel), ?_⟩
  rw [← contains_iff]
  decide +kernel

end FunctionJar.Python
