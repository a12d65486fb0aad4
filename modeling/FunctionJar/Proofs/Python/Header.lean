import FunctionJar.Proofs.Archive.Index
import FunctionJar.Proofs.Naming
import FunctionJar.Proofs.Source.Seam

namespace FunctionJar.Python

open Source Text

variable {u : SourceUnit} {name out : List Char} {ps : List Piece}

def headline (u : SourceUnit) : List Char :=
  (" udf " ++ u.className ++ " (task: " ++ u.task ++ ")").toList

def exports (u : SourceUnit) (name : List Char) : List Char :=
  if contains exportName.toList u.code.toList then []
  else "\n\n__all__ = [\"".toList ++ name ++ "\"]".toList

theorem toList_wrap (u : SourceUnit) : (wrap u).toList = '#' :: headline u ++
    '\n' :: trimEnd u.code.toList ++ exports u u.simpleName.toList ++ ['\n'] := by
  unfold wrap exports headline
  split <;> simp [exportName]

theorem exists_feed (u : SourceUnit) (name : List Char) :
    ∃ t, exports u name ++ ['\n'] = '\n' :: t := by
  unfold exports
  split
  · exact ⟨[], rfl⟩
  · exact ⟨_, rfl⟩

def exportPieces (u : SourceUnit) (name : List Char) : List Piece :=
  if contains exportName.toList u.code.toList then []
  else "\n\n__all__ = [".toList.map .code ++ [.literal '"' name, .code ']']

theorem text_exportPieces : text (exportPieces u name) = exports u name := by
  unfold exportPieces exports
  split
  · rfl
  · rw [text_append, text_code]
    simp [text, Piece.source]

theorem blanked_exportPieces (h : '\n' ∉ name) : (exportPieces u name).flatMap Piece.blanked =
    exports u (List.replicate name.length ' ') := by
  unfold exportPieces exports
  split
  · rfl
  · rw [List.flatMap_append, blanked_code]
    simp [Piece.blanked, blank_eq_replicate h]

theorem standing_exportPieces (h : LiteralText '"' name) (rest : List Char) :
    Standing .python (exportPieces u name) rest := by
  unfold exportPieces
  split
  · trivial
  · have hplain : ∀ t, Standing .python ("\n\n__all__ = [".toList.map .code) t := fun t =>
      standing_code (by simp [IsQuote])
    refine standing_append.mpr ⟨hplain _, .literal (.inl rfl) h ?_, .code ?_, trivial⟩
    · rintro ⟨-, -, hhead⟩
      cases hhead
    · rw [opens_python]
      decide

theorem nested_exportPieces : WellNested (codeOf (exportPieces u name)) := by
  unfold exportPieces
  split
  · exact .nil
  · have hfront : WellNested "\n\n__all__ = ".toList := wellNested_of_plain rfl
    have hlist : WellNested ['[', ']'] := .wrap .square .nil .nil
    rw [codeOf_append, codeOf_code]
    exact hfront.append hlist

theorem literalText_of_not_mem (hescape : '\\' ∉ name) (hfeed : '\n' ∉ name) (hquote : '"' ∉ name) :
    LiteralText '"' name := by
  induction name with
  | nil => exact .nil
  | cons c name ih =>
      rw [List.mem_cons, not_or] at hescape hfeed hquote
      exact .plain (Ne.symm hescape.1) (Ne.symm hfeed.1) (Ne.symm hquote.1)
        (ih hescape.2 hfeed.2 hquote.2)

theorem plain_name (h : ClassName.check u.className = .ok ()) :
    '\n' ∉ u.className.toList ∧ '\n' ∉ u.simpleName.toList ∧
      LiteralText '"' u.simpleName.toList := by
  have hvalid := ClassName.check_eq_ok_iff.mp h
  have hsimple : ClassName.Usable u.simpleName.toList := hvalid.usable_simple
  have hother : ∀ c, ¬ (ClassName.Starts c ∨ ('0' ≤ c ∧ c ≤ '9')) → c ∉ u.simpleName.toList :=
    fun c hc => hsimple.not_mem hc
  simp only [ClassName.Starts] at hother
  have hfeed := hother '\n' (by decide)
  refine ⟨fun hmem => ?_, hfeed, literalText_of_not_mem (hother _ (by decide)) hfeed
    (hother _ (by decide))⟩
  have hblank := hvalid.not_blank hmem
  cases hblank

theorem count_headline (h : '\n' ∉ u.className.toList) :
    (headline u).count '\n' = u.task.toList.count '\n' := by
  simp [headline, List.count_append, List.count_eq_zero.mpr h]

theorem feed_not_mem_headline (h : '\n' ∉ u.className.toList) :
    '\n' ∉ headline u ↔ '\n' ∉ u.task.toList := by
  rw [← List.count_eq_zero, count_headline h, List.count_eq_zero]

theorem count_exports (u : SourceUnit) {name other : List Char}
    (h : name.count '\n' = other.count '\n') :
    (exports u name).count '\n' = (exports u other).count '\n' := by
  unfold exports
  split
  · rfl
  · simp only [List.count_append, h]

theorem count_wrap (h : '\n' ∉ u.className.toList) : (wrap u).toList.count '\n' =
    u.task.toList.count '\n' + (trimEnd u.code.toList).count '\n' +
      (exports u u.simpleName.toList).count '\n' + 2 := by
  rw [toList_wrap]
  simp only [List.cons_append, List.count_cons, List.count_append, count_headline h, List.count_nil]
  simp
  omega

theorem reads_wrap (hname : ClassName.check u.className = .ok ())
    (htask : '\n' ∉ u.task.toList) (hreads : Reads .python (trimEnd u.code.toList) ps) :
    Reads .python (wrap u).toList (.comment ('#' :: headline u) :: .code '\n' :: ps ++
      exportPieces u u.simpleName.toList ++ [.code '\n']) := by
  obtain ⟨hclass, hfeed, hliteral⟩ := plain_name hname
  have hline := (feed_not_mem_headline hclass).mpr htask
  have hcode : ∀ t, Stands .python (.code '\n') t := fun t => .code (by rw [opens_python]; decide)
  constructor
  · rw [toList_wrap, text_append, List.cons_append, List.cons_append, text_cons, text_cons,
      text_append, text_exportPieces, hreads.text_eq]
    simp [Piece.source, text]
  · refine standing_append.mpr ⟨⟨?_, hcode _, ?_⟩, hcode _, trivial⟩
    · exact .lineComment hline (.inr rfl)
    · refine standing_append.mpr ⟨?_, standing_exportPieces hliteral _⟩
      obtain ⟨t, ht⟩ := exists_feed u u.simpleName.toList
      rw [text_exportPieces]
      have hbehind := hreads.standing.append_feed t
      rwa [List.nil_append, ← ht] at hbehind

theorem exists_reads_of_validate {source simple : String} (h : validate source simple = .ok ()) :
    ∃ ps, Reads .python source.toList ps ∧ WellNested (codeOf ps) := by
  obtain ⟨out, hscan, -⟩ := bind_ok h
  obtain ⟨ps, hreads, hnested, -⟩ := scan_eq_ok_iff.mp (ok_of_mapError hscan)
  exact ⟨ps, hreads, hnested⟩

theorem scan_wrap (hname : ClassName.check u.className = .ok ()) (htask : '\n' ∉ u.task.toList)
    (hreads : Reads .python (trimEnd u.code.toList) ps) (hnested : WellNested (codeOf ps)) :
    scan .python (wrap u).toList = .ok (List.replicate ('#' :: headline u).length ' ' ++
      '\n' :: ps.flatMap Piece.blanked ++
      exports u (List.replicate u.simpleName.length ' ') ++ ['\n']) := by
  obtain ⟨hclass, hfeed, -⟩ := plain_name hname
  refine scan_eq_ok_iff.mpr ⟨_, reads_wrap hname htask hreads, ?_, ?_⟩
  · have hline : WellNested ['\n'] := wellNested_of_plain rfl
    rw [codeOf_append, codeOf_append]
    exact ((hline.append hnested).append nested_exportPieces).append hline
  · have hmark : '\n' ∉ '#' :: headline u := by
      simpa using (feed_not_mem_headline hclass).mpr htask
    rw [List.flatMap_append, List.flatMap_append, blanked_exportPieces hfeed,
      ← blank_eq_replicate hmark, String.length_toList]
    simp [Piece.blanked]

/-- The line feeds of a module are told from its parts: if the first line is blank to its end and the
parts follow, none is left for the task. -/
theorem feed_not_mem_task (hname : ClassName.check u.className = .ok ()) {n : Nat}
    (hscan : scan .python (trimEnd u.code.toList) = .ok out)
    (hwrap : scan .python (wrap u).toList = .ok (List.replicate n ' ' ++ '\n' :: out ++
      exports u (List.replicate u.simpleName.length ' ') ++ ['\n'])) : '\n' ∉ u.task.toList := by
  obtain ⟨hclass, hfeed, -⟩ := plain_name hname
  have hexports : (exports u (List.replicate u.simpleName.length ' ')).count '\n' =
      (exports u u.simpleName.toList).count '\n' := by
    refine count_exports u ?_
    rw [List.count_eq_zero.mpr hfeed, List.count_replicate]
    rfl
  have hcount := count_of_scan hwrap
  rw [count_wrap hclass, ← count_of_scan hscan, ← hexports] at hcount
  have htask : u.task.toList.count '\n' = 0 := by
    simp [List.count_replicate] at hcount
    omega
  exact List.count_eq_zero.mp htask

/-- Nothing of the first line of a module is code, and all behind it is blanked as it would be by
itself, exactly if the name of the task has no line feed. -/
theorem header_is_blank_iff (hname : ClassName.check u.className = .ok ())
    (hcode : validate u.code u.simpleName = .ok ()) :
    ∃ out, scan .python (trimEnd u.code.toList) = .ok out ∧
      ((∃ n, scan .python (wrap u).toList = .ok (List.replicate n ' ' ++ '\n' :: out ++
        exports u (List.replicate u.simpleName.length ' ') ++ ['\n'])) ↔ '\n' ∉ u.task.toList) := by
  obtain ⟨ps, hreads, hnested⟩ := exists_reads_of_validate hcode
  obtain ⟨qs, hqs, hnested⟩ := hreads.trimEnd hnested
  have hscan := scan_eq_ok_iff.mpr ⟨qs, hqs, hnested, rfl⟩
  refine ⟨_, hscan, ?_, fun htask => ?_⟩
  · rintro ⟨n, hwrap⟩
    exact feed_not_mem_task hname hscan hwrap
  · exact ⟨_, scan_wrap hname htask hqs hnested⟩

/-- Quotes and brackets that are not closed stand in the name of the task. -/
def unbalanced : SourceUnit :=
  ⟨0, "it's \"\"\" ([", "p.f", .python, "def f(x):\n    return '''a\n# b'''  # end \n\n"⟩

theorem header_is_blank_iff_unbalanced : ClassName.check unbalanced.className = .ok () ∧
    validate unbalanced.code unbalanced.simpleName = .ok () ∧
    ∃ out, scan .python (trimEnd unbalanced.code.toList) = .ok out ∧
      ∃ n, scan .python (wrap unbalanced).toList = .ok (List.replicate n ' ' ++ '\n' :: out ++
        exports unbalanced (List.replicate unbalanced.simpleName.length ' ') ++ ['\n']) := by
  have hname : ClassName.check unbalanced.className = .ok () := ok_of_toOption (by decide +kernel)
  have hcode : validate unbalanced.code unbalanced.simpleName = .ok () :=
    ok_of_toOption (by decide +kernel)
  obtain ⟨out, hscan, hiff⟩ := header_is_blank_iff hname hcode
  exact ⟨hname, hcode, out, hscan, hiff.mpr (by decide +kernel)⟩

def injected : SourceUnit :=
  ⟨0, "t\nimport os #", "p.f", .python, "def f(x):\n    return x\n"⟩

theorem injected_header_is_code : ClassName.check injected.className = .ok () ∧
    validate injected.code injected.simpleName = .ok () ∧
    scan .python (trimEnd injected.code.toList) = .ok "def f(x):\n    return x".toList ∧
    scan .python (wrap injected).toList = .ok
      "                  \nimport os   \ndef f(x):\n    return x\n\n__all__ = [\" \"]\n".toList ∧
    ¬ ∃ n rest, scan .python (wrap injected).toList = .ok (List.replicate n ' ' ++
      '\n' :: "def f(x):\n    return x".toList ++ rest) := by
  have hscan : scan .python (wrap injected).toList = .ok
      "                  \nimport os   \ndef f(x):\n    return x\n\n__all__ = [\" \"]\n".toList :=
    ok_of_toOption (by decide +kernel)
  refine ⟨ok_of_toOption (by decide +kernel), ok_of_toOption (by decide +kernel),
    ok_of_toOption (by decide +kernel), hscan, ?_⟩
  rintro ⟨n, rest, hblank⟩
  have hlines := Except.ok.inj (hscan.symm.trans hblank)
  -- behind the spaces, the second line begins with another character
  have hsecond := congrArg (fun s => (s.dropWhile (· = ' '))[1]?) hlines
  simp only [List.append_assoc] at hsecond
  rw [List.dropWhile_append_of_pos (by simp)] at hsecond
  cases hsecond

end FunctionJar.Python
