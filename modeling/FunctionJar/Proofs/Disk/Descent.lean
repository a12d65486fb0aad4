import FunctionJar.Proofs.ClassName
import FunctionJar.Proofs.Disk.Item
import Mathlib.Data.List.Induction

namespace FunctionJar

namespace Text

variable {sep : Char} {s : String}

theorem join_map_splitAt (hs : s.toList = [sep]) (text : String) :
    join s ((splitAt sep text.toList).map String.ofList) = text := by
  apply String.toList_inj.mp
  rw [join, String.toList_intercalate, hs, List.map_map]
  simpa [Function.comp_def] using intercalate_splitAt sep text.toList

theorem map_splitAt_join (hs : s.toList = [sep]) {ps : List String} (hne : ps ≠ [])
    (h : ∀ p ∈ ps, sep ∉ p.toList) : (splitAt sep (join s ps).toList).map String.ofList = ps := by
  have hpieces : ∀ piece ∈ ps.map String.toList, sep ∉ piece := by
    intro piece hpiece
    obtain ⟨p, hp, rfl⟩ := List.mem_map.mp hpiece
    exact h p hp
  rw [join, String.toList_intercalate, hs, splitAt_intercalate (by simpa using hne) hpieces]
  simp [Function.comp_def]

theorem join_concat_append (s : String) (front : List String) (last ending : String) :
    join s (front ++ [last]) ++ ending = join s (front ++ [last ++ ending]) := by
  apply String.toList_inj.mp
  simp only [join, String.toList_append, String.toList_intercalate]
  induction front with
  | nil => simp [List.intercalate]
  | cons part front ih =>
      cases front <;> simp_all [List.intercalate]

end Text

namespace Path

theorem slash_not_mem_of_mem_parts {path part : String} (h : part ∈ parts path) :
    '/' ∉ part.toList := by
  obtain ⟨piece, hpiece, rfl⟩ := List.mem_map.mp h
  rw [String.toList_ofList]
  exact Text.not_mem_of_mem_splitAt hpiece

theorem join_parts (path : String) : Text.join "/" (parts path) = path :=
  Text.join_map_splitAt rfl path

theorem parts_injective {p q : String} (h : parts p = parts q) : p = q := by
  rw [← join_parts p, h, join_parts]

theorem parts_of_join {ps : List String} (hne : ps ≠ []) (h : ∀ p ∈ ps, '/' ∉ p.toList) :
    parts (Text.join "/" ps) = ps :=
  Text.map_splitAt_join rfl hne h

theorem parts_append (p q : String) : parts (p ++ "/" ++ q) = parts p ++ parts q := by
  have htext : (p ++ "/" ++ q).toList = p.toList ++ '/' :: q.toList := by simp
  rw [parts, htext, Text.splitAt_append, List.map_append]
  rfl

theorem endsWith_of_parts {path name : String} {above : List String}
    (h : parts path = above ++ [name]) (hname : ItemName name) : path.endsWith "/" = false := by
  refine Bool.eq_false_iff.mpr fun hend => ?_
  obtain ⟨front, hfront⟩ := toList_endsWith_slash hend
  have hlast : parts path = (Text.splitAt '/' front).map String.ofList ++ [""] := by
    rw [parts, hfront, Text.splitAt_append]
    simp [Text.splitAt]
  obtain ⟨-, hempty⟩ := List.append_inj' (h.symm.trans hlast) rfl
  obtain rfl : name = "" := by simpa using hempty
  exact absurd hname.idle (by decide)

theorem ne_empty_of_parts {path name : String} {above : List String}
    (h : parts path = above ++ [name]) (hname : ItemName name) : path ≠ "" := by
  rintro rfl
  have hempty : parts "" = [] ++ [""] := rfl
  obtain ⟨-, hlast⟩ := List.append_inj' (h.symm.trans hempty) rfl
  obtain rfl : name = "" := by simpa using hlast
  exact absurd hname.idle (by decide)

theorem bare_of_not_endsWith {path : String} (h : path.endsWith "/" = false) :
    bare path = path := by
  by_cases hempty : path = ""
  · rw [hempty]
    rfl
  · refine bare_eq (mt String.toList_eq_nil_iff.mp hempty) fun hlast => ?_
    rw [← String.endsWith_toSlice, String.Slice.endsWith_string_eq_false_iff] at h
    obtain ⟨front, hfront⟩ := List.getLast?_eq_some_iff.mp hlast
    exact h ⟨front, by simpa using hfront.symm⟩

theorem bare_of_parts {path name : String} {above : List String}
    (h : parts path = above ++ [name]) (hname : ItemName name) : bare path = path :=
  bare_of_not_endsWith (endsWith_of_parts h hname)

theorem isAbsolute_iff {path : String} :
    isAbsolute path ↔ ∃ part rest, parts path = "" :: part :: rest := by
  rw [isAbsolute, String.startsWith_string_iff]
  constructor
  · rintro ⟨rest, hrest⟩
    have htext : path.toList = '/' :: rest := by simpa using hrest.symm
    rw [parts, htext, Text.splitAt, if_pos rfl, List.map_cons]
    obtain ⟨piece, pieces, hpieces⟩ := List.exists_cons_of_ne_nil (Text.splitAt_ne_nil '/' rest)
    exact ⟨_, _, by rw [hpieces]; rfl⟩
  · rintro ⟨part, rest, hparts⟩
    rw [← join_parts path, hparts, Text.join, String.toList_intercalate]
    simp [List.intercalate]

theorem isAbsolute_of_parts {p q name : String} {above names : List String}
    (h : parts p = above ++ [name]) (habove : above ≠ []) (hq : parts q = parts p ++ names) :
    isAbsolute q = isAbsolute p := by
  obtain ⟨first, rest, rfl⟩ := List.exists_cons_of_ne_nil habove
  rw [Bool.eq_iff_iff, isAbsolute_iff, isAbsolute_iff, hq, h]
  cases rest <;> simp

theorem dropIdle_append_name {ps : List String} {p : String} (h : isIdle p = false) :
    dropIdle (ps ++ [p]) = ps ++ [p] := by
  simp [dropIdle, h]

theorem prefix_of_dropIdle (ps : List String) : dropIdle ps <+: ps := by
  have hsuffix := List.dropWhile_suffix isIdle (l := ps.reverse)
  rwa [← List.reverse_prefix, List.reverse_reverse] at hsuffix

section Parent

variable {path first last name : String} {front mid : List String}

theorem parent_of_name (hname : isIdle name = false) (h : parts path = first :: mid ++ [name]) :
    parent path = some (ofParts (first :: dropIdle mid)) := by
  rw [parent, h, List.cons_append]
  simp only [dropIdle_append_name hname]
  cases hmid : mid ++ [name] with
  | nil => simp at hmid
  | cons part rest => simp only [← hmid, List.dropLast_concat]

/-- The parts in front of a name, less idle ones at the end, are those of a path, unless the first
is all that is left of the root's. -/
theorem parts_ofParts (h : parts path = first :: mid ++ [name])
    (hfirst : first = "" → dropIdle mid ≠ []) :
    parts (ofParts (first :: dropIdle mid)) = first :: dropIdle mid := by
  have hslash : ∀ p ∈ first :: dropIdle mid, '/' ∉ p.toList := by
    intro p hp
    have hfront : first :: dropIdle mid <+: first :: mid :=
      List.cons_prefix_cons.mpr ⟨rfl, prefix_of_dropIdle mid⟩
    have hmem : p ∈ parts path := h ▸ List.mem_append_left _ (hfront.subset hp)
    exact slash_not_mem_of_mem_parts hmem
  unfold ofParts
  split
  · next he => simp_all
  · exact parts_of_join (by simp) hslash

/-- The parts in front of a name are those of the parent, unless they end in a part that counts for
nothing. -/
theorem parent_of_parts (hfront : front ≠ []) (hlast : isIdle last = false)
    (hname : isIdle name = false) (h : parts path = front ++ [last] ++ [name]) :
    ∃ above, parent path = some above ∧ parts above = front ++ [last] := by
  obtain ⟨first, mid, rfl⟩ := List.exists_cons_of_ne_nil hfront
  have hparts : parts path = first :: (mid ++ [last]) ++ [name] := by simpa using h
  have hdrop : dropIdle (mid ++ [last]) = mid ++ [last] := dropIdle_append_name hlast
  have habove := parts_ofParts hparts (by simp [hdrop])
  rw [hdrop] at habove
  exact ⟨_, hdrop ▸ parent_of_name hname hparts, habove⟩

theorem parent_isSome (hfront : front ≠ []) (hname : isIdle name = false)
    (h : parts path = front ++ [name]) : ∃ above, parent path = some above := by
  obtain ⟨first, mid, rfl⟩ := List.exists_cons_of_ne_nil hfront
  exact ⟨_, parent_of_name hname h⟩

end Parent

end Path

/-- A path that goes down by these names, from wherever it starts. -/
structure Descends (path : String) (names : List String) : Prop where
  parts : Path.parts path = names
  items : ∀ name ∈ names, ItemName name

namespace Disk

/-- A folder without links in it, and a path that leads to it and ends in a name. -/
structure Holds (d : Disk) (base : String) (place : List String) : Prop where
  leads : ∀ follow, resolveBy follow d base = .ok place
  folder : d.root.see? place = some .empty
  linkless : ∀ q target, d.root.see? (place ++ q) ≠ some (.link target)
  named : ∃ above name, above ≠ [] ∧ Path.parts base = above ++ [name] ∧ ItemName name

/-- Nothing is seen to change but in one folder, where there are no new links. -/
structure Within (place : List String) (d d' : Disk) : Prop where
  here : d'.here = d.here
  grows : d.root.Grows d'.root
  outside : ∀ q, ¬ place <+: q → d'.root.see? q = d.root.see? q

variable {d d' d'' : Disk} {base path : String} {place names : List String}

theorem Within.refl (place : List String) (d : Disk) : Within place d d :=
  ⟨rfl, .refl _, fun _ _ => rfl⟩

theorem Within.trans (h : Within place d d') (h' : Within place d' d'') : Within place d d'' :=
  ⟨h'.here.trans h.here, h.grows.trans h'.grows,
    fun q hq => (h'.outside q hq).trans (h.outside q hq)⟩

theorem Holds.within (h : Holds d base place) (hd : Within place d d') : Holds d' base place where
  leads follow := resolveBy_grows hd.here hd.grows (h.leads follow)
  folder := hd.grows.folder h.folder
  linkless q target hlink := h.linkless q target ((hd.grows.link_iff _ target).mp hlink)
  named := h.named

theorem within_put {new : Node} (hclear : d.root.Clear (place ++ names))
    (hitems : new.items = []) (hlink : new.isLink = false) :
    Within place d (d.withRoot (d.root.put (place ++ names) new)) where
  here := rfl
  grows := Node.grows_put hclear hitems hlink
  outside _ hq := Node.see?_put (fun hle => hq ((List.prefix_append _ _).trans hle)) _ _

theorem Holds.goes (h : Holds d base place) (hitems : ∀ name ∈ names, ItemName name) {follow : Bool}
    {target : List String}
    (hgoes : Goes d.root follow mostLinks (d.start base) (Path.parts base ++ names) target) :
    target = place ++ names := by
  induction names using List.reverseRecOn generalizing follow target with
  | nil =>
      obtain ⟨-, -, -, hbase⟩ := resolveBy_ok_iff.mp (h.leads follow)
      rw [List.append_nil] at hgoes ⊢
      exact Except.ok.inj ((walk_iff_goes.mpr hgoes).symm.trans (walk_iff_goes.mpr hbase))
  | append_singleton names name ih =>
      rw [← List.append_assoc] at hgoes ⊢
      have hname := hitems name (by simp)
      obtain ⟨above, habove, hfolder, hlong⟩ := hgoes.front
      obtain rfl := ih (fun n hn => hitems n (by simp [hn])) habove
      have hlast :
          Stride d.root follow (place ++ names) name [] false (place ++ names ++ [name]) [] :=
        .down hfolder hname.idle hname.up (hlong hname.idle hname.up) (.inl fun target => by
          rw [List.append_assoc]
          exact h.linkless _ target)
      exact Except.ok.inj
        ((walk_iff_goes.mpr hgoes).symm.trans (walk_iff_goes.mpr (habove.append hlast)))

theorem Holds.resolveBy_eq (h : Holds d base place) (hitems : ∀ name ∈ names, ItemName name)
    (hparts : Path.parts path = Path.parts base ++ names) {follow : Bool} {target : List String}
    (hpath : resolveBy follow d path = .ok target) : target = place ++ names := by
  obtain ⟨above, name, habove, hbase, -⟩ := h.named
  obtain ⟨-, -, -, hgoes⟩ := resolveBy_ok_iff.mp hpath
  have hstart : d.start path = d.start base := by
    rw [start, start, Path.isAbsolute_of_parts hbase habove hparts]
  rw [hstart, hparts] at hgoes
  exact h.goes hitems hgoes

theorem Holds.bare_eq (h : Holds d base place) (hitems : ∀ name ∈ names, ItemName name)
    (hparts : Path.parts path = Path.parts base ++ names) :
    Path.bare path = path ∧ path.endsWith "/" = false := by
  obtain ⟨above, name, -, hbase, hname⟩ := h.named
  rcases List.eq_nil_or_concat names with rfl | ⟨front, last, rfl⟩
  · have hpath : Path.parts path = above ++ [name] := by rw [hparts, hbase, List.append_nil]
    exact ⟨Path.bare_of_parts hpath hname, Path.endsWith_of_parts hpath hname⟩
  · have hpath : Path.parts path = (Path.parts base ++ front) ++ [last] := by simpa using hparts
    have hlast := hitems last (by simp)
    exact ⟨Path.bare_of_parts hpath hlast, Path.endsWith_of_parts hpath hlast⟩

theorem Holds.makeFolder (h : Holds d base place) (hitems : ∀ name ∈ names, ItemName name)
    (hparts : Path.parts path = Path.parts base ++ names) (hmade : d.makeFolder path = .ok d') :
    Within place d d' := by
  obtain ⟨target, htarget, hnone, rfl⟩ := makeFolder_ok hmade
  rw [(h.bare_eq hitems hparts).1] at htarget
  obtain rfl := h.resolveBy_eq hitems hparts htarget
  exact within_put (Node.clear_of_get?_none hnone) rfl rfl

theorem Holds.haveFolder (h : Holds d base place) (hitems : ∀ name ∈ names, ItemName name)
    (hparts : Path.parts path = Path.parts base ++ names) (hmade : d.haveFolder path = .ok d') :
    Within place d d' := by
  unfold Disk.haveFolder at hmade
  split at hmade
  · split at hmade
    · exact Except.ok.inj hmade ▸ .refl place d
    · cases hmade
  · exact h.makeFolder hitems hparts hmade

theorem Holds.haveFolder_self (h : Holds d base place) : d.haveFolder base = .ok d := by
  obtain ⟨items, hitems⟩ := Node.see?_eq_empty.mp h.folder
  have hbare : Path.bare base = base :=
    (h.bare_eq (by simp) (List.append_nil (Path.parts base)).symm).1
  have hmade : d.makeFolder base = .error .taken := by
    rw [Disk.makeFolder, hbare, Disk.place, h.leads]
    simp only [bind, Except.bind, hitems]
    rfl
  have hfolder : d.isFolder base = true := by
    rw [Disk.isFolder, Disk.node, Disk.resolve, h.leads]
    simp only [bind, Except.bind, nodeAt, hitems]
    rfl
  rw [Disk.haveFolder, hmade]
  simp only [hfolder, if_true]

/-- Folders are made from the first missing one on, and the base is not missing. -/
theorem Holds.makeChain {paths : List String} (h : Holds d base place)
    (hpaths : ∀ p ∈ paths, ∃ names, (∀ name ∈ names, ItemName name) ∧
      Path.parts p = Path.parts base ++ names) (rest : List String) :
    Within place d (d.makeChain (paths ++ base :: rest)).1 := by
  induction paths with
  | nil =>
      rw [List.nil_append, Disk.makeChain, h.haveFolder_self]
      exact .refl place d
  | cons p paths ih =>
      obtain ⟨names, hitems, hparts⟩ := hpaths p (by simp)
      have hrest := ih fun q hq => hpaths q (by simp [hq])
      rw [List.cons_append, Disk.makeChain]
      split
      · next made hmade => exact h.haveFolder hitems hparts hmade
      · split
        · next he => rw [he] at hrest; exact hrest
        · next he =>
            rw [he] at hrest
            split
            · next made hmade =>
                exact hrest.trans ((h.within hrest).haveFolder hitems hparts hmade)
            · exact hrest
      · exact .refl place d

theorem Holds.parent {name : String} (h : Holds d base place)
    (hitems : ∀ name ∈ names, ItemName name) (hname : ItemName name)
    (hparts : Path.parts path = Path.parts base ++ names ++ [name]) :
    ∃ above, Path.parent path = some above ∧ Path.parts above = Path.parts base ++ names := by
  obtain ⟨above, last, habove, hbase, hlast⟩ := h.named
  obtain ⟨front, final, hfront, hfinal, hall⟩ : ∃ front final, front ≠ [] ∧
      Path.isIdle final = false ∧ Path.parts base ++ names = front ++ [final] := by
    rcases List.eq_nil_or_concat names with rfl | ⟨init, final, rfl⟩
    · exact ⟨above, last, habove, hlast.idle, by rw [hbase, List.append_nil]⟩
    · exact ⟨Path.parts base ++ init, final, by simp [hbase], (hitems final (by simp)).idle,
        by simp⟩
  rw [hall] at hparts ⊢
  exact Path.parent_of_parts hfront hfinal hname.idle hparts

theorem Holds.ancestors (h : Holds d base place) (hitems : ∀ name ∈ names, ItemName name)
    (hparts : Path.parts path = Path.parts base ++ names) : ∃ paths rest,
      Path.ancestors path = paths ++ base :: rest ∧ ∀ p ∈ paths, ∃ names,
        (∀ name ∈ names, ItemName name) ∧ Path.parts p = Path.parts base ++ names := by
  induction names using List.reverseRecOn generalizing path with
  | nil =>
      obtain ⟨above, last, habove, hbase, hlast⟩ := h.named
      obtain rfl : path = base := Path.parts_injective (by rw [hparts, List.append_nil])
      obtain ⟨up, hup⟩ := Path.parent_isSome habove hlast.idle hbase
      refine ⟨[], Path.ancestorsFrom above.length up, ?_, by simp⟩
      rw [Path.ancestors, hbase, List.length_append, List.length_singleton, Path.ancestorsFrom, hup]
      rfl
  | append_singleton names name ih =>
      have hfront : ∀ n ∈ names, ItemName n := fun n hn => hitems n (by simp [hn])
      rw [← List.append_assoc] at hparts
      obtain ⟨up, hup, hupParts⟩ := h.parent hfront (hitems name (by simp)) hparts
      obtain ⟨paths, rest, hancestors, hall⟩ := ih hfront hupParts
      refine ⟨path :: paths, rest, ?_, ?_⟩
      · rw [Path.ancestors, hparts, List.length_append, List.length_singleton, Path.ancestorsFrom,
          hup, List.cons_append, ← hancestors, Path.ancestors, hupParts]
      · intro p hp
        rcases List.mem_cons.mp hp with rfl | hp
        · exact ⟨names ++ [name], hitems, by rw [hparts, List.append_assoc]⟩
        · exact hall p hp

theorem Holds.makeFolders (h : Holds d base place) (hitems : ∀ name ∈ names, ItemName name)
    (hparts : Path.parts path = Path.parts base ++ names) :
    Within place d (d.applied (.makeFolders path)) := by
  obtain ⟨paths, rest, hancestors, hpaths⟩ := h.ancestors hitems hparts
  rw [applied, Disk.makeFolders, hancestors]
  exact h.makeChain hpaths rest

theorem Holds.write (h : Holds d base place) (hitems : ∀ name ∈ names, ItemName name)
    (hparts : Path.parts path = Path.parts base ++ names) {content : Text.Bytes}
    (hwrite : d.write path content = .ok d') :
    Within place d d' ∧ ∃ runs, d'.root.get? (place ++ names) = some (.file content runs) := by
  obtain ⟨hbare, hend⟩ := h.bare_eq hitems hparts
  rw [Disk.write, hbare] at hwrite
  obtain ⟨target, htarget, hwrite⟩ := bind_ok hwrite
  obtain ⟨-, hwrite⟩ := check_ok hwrite
  have hopen := open_of_resolveBy htarget
  obtain rfl := h.resolveBy_eq hitems hparts htarget
  have hput (runs : Bool) (hclear : d.root.Clear (place ++ names))
      (hd' : d' = d.withRoot (d.root.put (place ++ names) (.file content runs))) :
      Within place d d' ∧ ∃ runs, d'.root.get? (place ++ names) = some (.file content runs) := by
    subst hd'
    exact ⟨within_put hclear rfl rfl, runs, hopen.get?_put _⟩
  split at hwrite
  · cases hwrite
  · next old runs hold =>
      refine hput runs (fun m hm => ?_) (Except.ok.inj hwrite).symm
      rw [Node.see?, hold] at hm
      rw [← Option.some.inj hm]
      rfl
  · next hfolder hfile =>
      refine hput false (fun m hm => ?_) (Except.ok.inj hwrite).symm
      cases hnode : d.root.get? (place ++ names) with
      | none => simp [Node.see?, hnode] at hm
      | some n =>
          cases n with
          | file old runs => exact absurd hnode (hfile old runs)
          | folder items => exact absurd hnode (hfolder items)
          | link other => exact absurd (Node.see?_eq_link.mpr hnode) (h.linkless names other)

end Disk

end FunctionJar
