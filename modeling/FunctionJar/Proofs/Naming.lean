import FunctionJar.Archive.Conflict
import FunctionJar.Jvm
import FunctionJar.Proofs.Disk.Descent
import FunctionJar.Proofs.Workspace
import FunctionJar.Python

namespace FunctionJar

/-- Where the strategy of a dialect puts the class of a unit. -/
def Dialect.primaryPath (d : Dialect) (className : String) : String :=
  match d with
  | .java | .scala | .sql => Jvm.classPath className
  | .python => Python.entryPath className

theorem itemName_of_cons {name : String} {c : Char} {cs : List Char} (h : name.toList = c :: cs)
    (hc : c ≠ '.') (hslash : '/' ∉ name.toList) : ItemName name where
  idle := by
    have hempty : name ≠ "" := fun he => by simp [he] at h
    have hdot : name ≠ "." := fun he => hc (by simp [he] at h; exact h.1.symm)
    simp [Path.isIdle, hempty, hdot]
  up he := hc (by simp [he] at h; exact h.1.symm)
  slash := hslash

namespace Descends

variable {base path : String} {front names : List String}

theorem ne_nil (h : Descends path names) : names ≠ [] := by
  rw [← h.parts, Path.parts]
  simpa using Text.splitAt_ne_nil '/' path.toList

theorem relative (h : Descends path names) : Path.isAbsolute path = false := by
  refine Bool.eq_false_iff.mpr fun habsolute => ?_
  obtain ⟨part, rest, hparts⟩ := Path.isAbsolute_iff.mp habsolute
  have hempty := h.items "" (by rw [← h.parts, hparts]; exact List.mem_cons_self)
  exact absurd hempty.idle (by decide)

theorem single {name : String} (h : ItemName name) : Descends name [name] where
  parts := by
    rw [Path.parts, Text.splitAt_of_not_mem h.slash, List.map_singleton, String.ofList_toList]
  items other hother := List.mem_singleton.mp hother ▸ h

theorem slash_append (hbase : Descends base front) (h : Descends path names) :
    Descends (base ++ "/" ++ path) (front ++ names) where
  parts := by rw [Path.parts_append, hbase.parts, h.parts]
  items name hname := (List.mem_append.mp hname).elim (hbase.items name) (h.items name)

theorem parts_join {above : List String} {last : String} (hbase : Path.parts base = above ++ [last])
    (hlast : ItemName last) (h : Descends path names) :
    Path.parts (Path.join base path) = Path.parts base ++ names := by
  have hne := Path.ne_empty_of_parts hbase hlast
  have hend := Path.endsWith_of_parts hbase hlast
  rw [Path.join, h.relative, if_neg Bool.false_ne_true, if_neg hne, hend,
    if_neg Bool.false_ne_true, Path.parts_append, h.parts]

theorem join (hbase : Descends base front) (h : Descends path names) :
    Descends (Path.join base path) (front ++ names) where
  parts := by
    obtain ⟨above, last, rfl⟩ := (List.eq_nil_or_concat front).resolve_left hbase.ne_nil
    rw [List.concat_eq_append] at hbase
    rw [parts_join hbase.parts (hbase.items last (by simp)) h, hbase.parts, List.concat_eq_append]
  items name hname := (List.mem_append.mp hname).elim (hbase.items name) (h.items name)

theorem foldl_join {folders : List String} (hbase : Descends base front)
    (hitems : ∀ folder ∈ folders, ItemName folder) :
    Descends (folders.foldl Path.join base) (front ++ folders) := by
  induction folders generalizing base front with
  | nil => simpa using hbase
  | cons folder folders ih =>
      have hnext := hbase.join (.single (hitems folder (by simp)))
      simpa using ih hnext fun item hitem => hitems item (by simp [hitem])

end Descends

namespace ClassName

variable {name other : String}

theorem Usable.cons {part : List Char} (h : Usable part) : ∃ c cs, part = c :: cs ∧ c ≠ '.' := by
  obtain ⟨⟨c, cs, rfl, hc, -⟩, -⟩ := h
  refine ⟨c, cs, rfl, ?_⟩
  rintro rfl
  revert hc
  simp only [Starts]
  decide

theorem Usable.not_mem {part : List Char} (h : Usable part) {sep : Char}
    (hsep : ¬ (Starts sep ∨ ('0' ≤ sep ∧ sep ≤ '9'))) : sep ∉ part := by
  obtain ⟨⟨c, cs, rfl, hc, hcs⟩, -⟩ := h
  intro hmem
  rcases List.mem_cons.mp hmem with rfl | hmem
  · exact hsep (.inl hc)
  · exact hsep (hcs sep hmem)

theorem Usable.slash {part : List Char} (h : Usable part) : '/' ∉ part := by
  refine h.not_mem ?_
  simp only [Starts]
  decide

/-- A segment is an item's name, and so it is with more at its end. -/
theorem Usable.itemName_append {segment ending : String} (h : Usable segment.toList)
    (hending : '/' ∉ ending.toList) : ItemName (segment ++ ending) := by
  obtain ⟨c, cs, hc, hdot⟩ := h.cons
  have hcons : (segment ++ ending).toList = c :: (cs ++ ending.toList) := by
    rw [String.toList_append, hc, List.cons_append]
  refine itemName_of_cons hcons hdot ?_
  rw [String.toList_append, List.mem_append, not_or]
  exact ⟨h.slash, hending⟩

theorem Usable.itemName {segment : String} (h : Usable segment.toList) : ItemName segment := by
  have hending : '/' ∉ "".toList := by simp
  simpa using h.itemName_append hending

theorem Valid.usable (h : Valid name) {segment : String} (hsegment : segment ∈ segments name) :
    Usable segment.toList := by
  obtain ⟨parts, hsplits, hparts⟩ := h
  rw [segments, ← splits_iff.mp hsplits] at hsegment
  obtain ⟨part, hpart, rfl⟩ := List.mem_map.mp hsegment
  rw [String.toList_ofList]
  exact hparts part hpart

theorem segments_ne_nil (name : String) : segments name ≠ [] := by
  simpa [segments] using Text.splitAt_ne_nil '.' name.toList

theorem segments_of_join {parts : List String} (hne : parts ≠ [])
    (h : ∀ p ∈ parts, '.' ∉ p.toList) : segments (Text.join "." parts) = parts :=
  Text.map_splitAt_join rfl hne h

theorem Valid.exists_segments (h : Valid name) : ∃ front last, segments name = front ++ [last] ∧
    simple name = last ∧ (package name).elim [] segments = front ∧
      ∀ segment ∈ front ++ [last], Usable segment.toList := by
  rcases List.eq_nil_or_concat (segments name) with hnil | ⟨front, last, hsegments⟩
  · exact absurd hnil (segments_ne_nil name)
  · rw [List.concat_eq_append] at hsegments
    have husable : ∀ segment ∈ front ++ [last], Usable segment.toList := fun segment hsegment =>
      h.usable (hsegments ▸ hsegment)
    refine ⟨front, last, hsegments, by simp [simple, hsegments], ?_, husable⟩
    have hpoint : ∀ segment ∈ front, '.' ∉ segment.toList := fun segment hsegment =>
      (husable segment (List.mem_append_left _ hsegment)).not_mem (by
        simp only [Starts]
        decide)
    rw [package, hsegments, List.dropLast_concat]
    cases front with
    | nil => rfl
    | cons part rest => exact segments_of_join (List.cons_ne_nil _ _) hpoint

theorem Valid.usable_simple (h : Valid name) : Usable (simple name).toList := by
  obtain ⟨front, last, -, hlast, -, husable⟩ := h.exists_segments
  rw [hlast]
  exact husable last (by simp)

/-- The path of a name with an ending, one folder for each segment before the last. -/
theorem Valid.descends_slashed (h : Valid name) {ending : String} (hending : '/' ∉ ending.toList) :
    ∃ names, Descends (slashed name ++ ending) names := by
  obtain ⟨front, last, hsegments, -, -, husable⟩ := h.exists_segments
  have hitems : ∀ item ∈ front ++ [last ++ ending], ItemName item := by
    intro item hitem
    rcases List.mem_append.mp hitem with hitem | hitem
    · exact (husable item (List.mem_append_left _ hitem)).itemName
    · rw [List.mem_singleton.mp hitem]
      exact (husable last (by simp)).itemName_append hending
  refine ⟨front ++ [last ++ ending], ?_, hitems⟩
  rw [slashed, hsegments, Text.join_concat_append]
  exact Path.parts_of_join (by simp) fun item hitem => (hitems item hitem).slash

theorem slashed_injective (h : Valid name) (hother : Valid other)
    (he : slashed name = slashed other) : name = other := by
  have hparts {n : String} (hn : Valid n) : Path.parts (slashed n) = segments n :=
    Path.parts_of_join (segments_ne_nil n) fun p hp => (hn.usable hp).slash
  have hsegments : segments name = segments other := by rw [← hparts h, he, hparts hother]
  rw [← Text.join_map_splitAt (s := ".") rfl name, ← Text.join_map_splitAt (s := ".") rfl other]
  exact congrArg _ hsegments

end ClassName

open ClassName (Valid)

variable {name other : String}

theorem Jvm.descends_classPath (h : Valid name) : ∃ names, Descends (Jvm.classPath name) names :=
  h.descends_slashed (by decide)

theorem Python.descends_entryPath (h : Valid name) :
    ∃ names, Descends (Python.entryPath name) names := by
  have hending : '/' ∉ ".py".toList := by decide
  obtain ⟨names, hnames⟩ := h.descends_slashed hending
  have hroot : Descends Python.root ["udf", "py"] := by
    refine ⟨by decide +kernel, fun item hitem => ?_⟩
    have : item = "udf" ∨ item = "py" := by simpa using hitem
    rcases this with rfl | rfl <;> exact ⟨by decide, by decide, by decide⟩
  have hall := hroot.slash_append hnames
  rw [← String.append_assoc] at hall
  exact ⟨_, hall⟩

theorem Dialect.descends_primaryPath (d : Dialect) (h : Valid name) :
    ∃ names, Descends (d.primaryPath name) names := by
  cases d with
  | java | scala | sql => exact Jvm.descends_classPath h
  | python => exact Python.descends_entryPath h

theorem Jvm.descends_sourcePath (h : Valid name) {extension : String}
    (hextension : '/' ∉ extension.toList) :
    ∃ names, Descends (Jvm.sourcePath name extension) names := by
  obtain ⟨front, last, -, hsimple, hpackage, husable⟩ := h.exists_segments
  have hfront : ∀ folder ∈ front, ItemName folder := fun folder hfolder =>
    (husable folder (List.mem_append_left _ hfolder)).itemName
  have hfile : ItemName (last ++ ("." ++ extension)) :=
    (husable last (by simp)).itemName_append (by simpa using hextension)
  have hsource : Descends "src" ["src"] := .single ⟨by decide, by decide, by decide⟩
  have hpath : Jvm.sourcePath name extension =
      Path.join (front.foldl Path.join "src") (last ++ ("." ++ extension)) := by
    rw [Jvm.sourcePath, hsimple, ← hpackage, String.append_assoc]
    cases ClassName.package name <;> rfl
  rw [hpath]
  exact ⟨_, (hsource.foldl_join hfront).join (.single hfile)⟩

theorem Workspace.itemName_stem (index : Nat) (h : Valid name) {ending : String}
    (hending : '/' ∉ ending.toList) : ItemName (Workspace.stem index name ++ ending) := by
  obtain ⟨front, last, -, hsimple, -, husable⟩ := h.exists_segments
  have hlast := (husable last (by simp)).slash
  have hindex : '/' ∉ (Text.padLeft 4 '0' (toString index)).toList := by
    intro hmem
    rw [Text.padLeft, String.toList_append, String.toList_ofList, List.mem_append,
      List.mem_replicate] at hmem
    rcases hmem with ⟨-, hmem⟩ | hmem
    · exact absurd hmem (by decide)
    · exact absurd (Text.isDigit_of_mem_toString hmem) (by decide)
  have htext : (Workspace.stem index name ++ ending).toList = 'u' :: ("df-".toList ++
      (Text.padLeft 4 '0' (toString index)).toList ++ "-".toList ++ last.toList ++ "-".toList ++
        ending.toList) := by
    simp [Workspace.stem, hsimple]
  refine itemName_of_cons htext (by decide) ?_
  rw [htext]
  simp only [List.mem_cons, List.mem_append, not_or]
  exact ⟨by decide, ⟨⟨⟨⟨by decide, hindex⟩, by decide⟩, hlast⟩, by decide⟩, hending⟩

theorem getLast?_append_of_getLast? (s : String) {ending : String} {c : Char}
    (h : ending.toList.getLast? = some c) : (s ++ ending).toList.getLast? = some c := by
  rw [String.toList_append, List.getLast?_append, h]
  rfl

/-- What the paths of a dialect end in tells them from those of another kind, and from what every
archive has. -/
def Dialect.lastLetter : Dialect → Char
  | .java | .scala | .sql => 's'
  | .python => 'y'

theorem Dialect.getLast?_primaryPath (d : Dialect) (name : String) :
    (d.primaryPath name).toList.getLast? = some d.lastLetter := by
  cases d with
  | java | scala | sql =>
      have hending : ".class".toList.getLast? = some 's' := by decide
      exact getLast?_append_of_getLast? _ hending
  | python =>
      have hending : ".py".toList.getLast? = some 'y' := by decide
      exact getLast?_append_of_getLast? _ hending

theorem Dialect.primaryPath_inj {a b : Dialect} (h : Valid name) (hother : Valid other)
    (he : a.primaryPath name = b.primaryPath other) : name = other := by
  have hletters : a.lastLetter = b.lastLetter := by
    have hlast := congrArg (fun p : String => p.toList.getLast?) he
    simpa only [getLast?_primaryPath, Option.some.injEq] using hlast
  have hclass (hpath : Jvm.classPath name = Jvm.classPath other) : name = other :=
    ClassName.slashed_injective h hother ((String.append_left_inj ".class").mp hpath)
  have hmodule (hpath : Python.entryPath name = Python.entryPath other) : name = other :=
    ClassName.slashed_injective h hother
      ((String.append_right_inj _).mp ((String.append_left_inj ".py").mp hpath))
  cases a with
  | python =>
      cases b with
      | python => exact hmodule he
      | java | scala | sql => exact absurd hletters (by decide)
  | java | scala | sql =>
      cases b with
      | python => exact absurd hletters (by decide)
      | java | scala | sql => exact hclass he

theorem Dialect.not_isReserved_primaryPath (d : Dialect) (name : String) :
    Archive.isReserved (d.primaryPath name) = false := by
  have hne (path : String) (hlast : path.toList.getLast? ≠ some d.lastLetter) :
      d.primaryPath name ≠ path := by
    rintro rfl
    exact hlast (d.getLast?_primaryPath name)
  have hmanifest := hne Archive.manifestPath (by cases d <;> decide +kernel)
  have hindex := hne Archive.indexPath (by cases d <;> decide +kernel)
  simp [Archive.isReserved, hmanifest, hindex]

end FunctionJar
