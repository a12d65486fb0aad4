import FunctionJar.Proofs.Disk.Resolution

namespace FunctionJar

/-- A name that can stand behind a folder in a path, and that is not another way to the folder. -/
structure ItemName (name : String) : Prop where
  idle : Path.isIdle name = false
  up : name ≠ ".."
  slash : '/' ∉ name.toList

namespace Path

variable {folder name : String}

theorem folder_ne_empty (path : String) : Path.folder path ≠ "" := by
  unfold Path.folder
  split
  · decide
  · decide
  · next hnotEmpty _ => exact hnotEmpty

theorem join_relative {path : String} (hfolder : folder ≠ "") (hpath : isAbsolute path = false) :
    join folder path = folder ++ (if folder.endsWith "/" then path else "/" ++ path) := by
  rw [join, hpath, if_neg Bool.false_ne_true, if_neg hfolder]
  split
  · rfl
  · rw [String.append_assoc]

theorem join_item (hfolder : folder ≠ "") (hname : '/' ∉ name.toList) :
    join folder name = folder ++ (if folder.endsWith "/" then name else "/" ++ name) :=
  join_relative hfolder (isAbsolute_of_not_mem hname)

theorem toList_endsWith_slash (h : folder.endsWith "/" = true) :
    ∃ front, folder.toList = front ++ ['/'] := by
  rw [← String.endsWith_toSlice, String.Slice.endsWith_string_iff] at h
  obtain ⟨front, hfront⟩ := h
  exact ⟨front, by simpa using hfront.symm⟩

theorem parts_join_relative {path : String} (hfolder : folder ≠ "")
    (hpath : isAbsolute path = false) : ∃ above, parts (join folder path) = above ++ parts path ∧
      (parts folder = above ∨ parts folder = above ++ [""]) := by
  rw [join_relative hfolder hpath]
  by_cases hend : folder.endsWith "/" = true
  · obtain ⟨front, hfront⟩ := toList_endsWith_slash hend
    refine ⟨(Text.splitAt '/' front).map String.ofList, ?_, .inr ?_⟩
    · rw [if_pos hend, parts, String.toList_append, hfront, List.append_assoc,
        List.singleton_append, Text.splitAt_append, List.map_append]
      rfl
    · rw [parts, hfront, Text.splitAt_append]
      simp [Text.splitAt]
  · refine ⟨parts folder, ?_, .inl rfl⟩
    rw [if_neg hend, parts, String.toList_append, String.toList_append]
    rw [show "/".toList ++ path.toList = '/' :: path.toList from rfl, Text.splitAt_append,
      List.map_append]
    rfl

theorem parts_join (hfolder : folder ≠ "") (hname : '/' ∉ name.toList) : ∃ above,
    parts (join folder name) = above ++ [name] ∧
      (parts folder = above ∨ parts folder = above ++ [""]) := by
  have hlast : parts name = [name] := by
    rw [parts, Text.splitAt_of_not_mem hname, List.map_singleton, String.ofList_toList]
  rw [← hlast]
  exact parts_join_relative hfolder (isAbsolute_of_not_mem hname)

theorem isAbsolute_join_relative {path : String} (hfolder : folder ≠ "")
    (hpath : isAbsolute path = false) : isAbsolute (join folder path) = isAbsolute folder := by
  obtain ⟨c, rest, hc⟩ := List.exists_cons_of_ne_nil
    (mt String.toList_eq_nil_iff.mp hfolder)
  rw [join_relative hfolder hpath, Bool.eq_iff_iff, isAbsolute, isAbsolute,
    String.startsWith_string_iff, String.startsWith_string_iff, String.toList_append, hc]
  simp

theorem isAbsolute_join (hfolder : folder ≠ "") (hname : '/' ∉ name.toList) :
    isAbsolute (join folder name) = isAbsolute folder :=
  isAbsolute_join_relative hfolder (isAbsolute_of_not_mem hname)

theorem getLast?_join {c : Char} (hlast : name.toList.getLast? = some c) :
    (join folder name).toList.getLast? = some c := by
  unfold join
  split
  · exact hlast
  · split
    · exact hlast
    · split
      · rw [String.toList_append, List.getLast?_append, hlast]
        rfl
      · rw [String.toList_append, List.getLast?_append, hlast]
        rfl

theorem bare_join {c : Char} (hlast : name.toList.getLast? = some c) (hc : c ≠ '/') :
    bare (join folder name) = join folder name ∧ (join folder name).endsWith "/" = false := by
  have hjoin : (join folder name).toList.getLast? = some c := getLast?_join hlast
  have hslash : (join folder name).toList.getLast? ≠ some '/' := by
    rw [hjoin]
    exact fun he => hc (Option.some.inj he)
  have hne : (join folder name).toList ≠ [] := by
    intro hnil
    simp [hnil] at hjoin
  exact ⟨bare_eq hne hslash, endsWith_slash hslash⟩

end Path

namespace Disk

variable {d d' : Disk} {folder name : String} {follow : Bool} {place above : List String}

theorem resolve_join (hfolder : folder ≠ "") (hname : ItemName name)
    (h : resolveBy follow d (Path.join folder name) = .ok place) :
    ∃ above items, d.resolve folder = .ok above ∧ d.root.get? above = some (.folder items) ∧
      ∀ d' : Disk, d'.here = d.here → d.root.Grows d'.root → ∀ follow',
        (∀ target, d'.root.see? (above ++ [name]) ≠ some (.link target)) ∨ follow' = false →
          resolveBy follow' d' (Path.join folder name) = .ok (above ++ [name]) := by
  obtain ⟨hempty, hnul, hlong, hgoes⟩ := resolveBy_ok_iff.mp h
  obtain ⟨front, hparts, hfront⟩ := Path.parts_join hfolder hname.slash
  rw [hparts] at hgoes
  obtain ⟨above, habove, hseen, hshort⟩ := hgoes.front
  obtain ⟨items, hitems⟩ := Node.see?_eq_empty.mp hseen
  refine ⟨above, items, ?_, hitems, ?_⟩
  · rw [resolve, resolveBy_ok_iff]
    rw [Path.join_item hfolder hname.slash] at hnul hlong
    refine ⟨hfolder, ?_, ?_, ?_⟩
    · rw [hasNul, String.toList_append] at hnul
      rw [hasNul]
      simp_all
    · rw [String.utf8ByteSize_append] at hlong
      omega
    · have hstart : d.start folder = d.start (Path.join folder name) := by
        rw [start, start, Path.isAbsolute_join hfolder hname.slash]
      rw [hstart]
      rcases hfront with hfront | hfront
      · rwa [hfront]
      · rw [hfront]
        exact habove.append (.stay hseen rfl)
  · intro d' hhere hgrows follow' hlink
    have hstart : d'.start (Path.join folder name) = d.start (Path.join folder name) := by
      rw [start, start, hhere]
    refine resolveBy_ok_iff.mpr ⟨hempty, hnul, hlong, ?_⟩
    rw [hstart, hparts]
    exact (habove.grows hgrows).append (.down (hgrows.folder hseen) hname.idle hname.up
      (hshort hname.idle hname.up) (hlink.imp_right fun hfollow => ⟨rfl, hfollow⟩))

end Disk

end FunctionJar
