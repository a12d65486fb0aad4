import FunctionJar.Disk.Basic
import FunctionJar.Proofs.Text

namespace FunctionJar

namespace Node

theorem lookup_cons_if (other : String) (item : String × Node) (items : List (String × Node)) :
    (item :: items).lookup other =
      if other = item.1 then some item.2 else items.lookup other := by
  rw [List.lookup_cons]
  by_cases h : other = item.1
  · simp [h]
  · have hne : (other == item.1) = false := by simpa using h
    rw [hne, if_neg h]

theorem lookup_putItem (name other : String) (n : Node) (items : List (String × Node)) :
    (putItem name n items).lookup other = if other = name then some n else items.lookup other := by
  induction items with
  | nil => rw [putItem, lookup_cons_if]
  | cons item items ih =>
      rw [putItem]
      by_cases hitem : item.1 = name
      · rw [if_pos hitem, lookup_cons_if, lookup_cons_if, hitem]
        by_cases h : other = name <;> simp [h]
      · rw [if_neg hitem, lookup_cons_if, lookup_cons_if, ih]
        by_cases h : other = item.1
        · rw [if_pos h, if_pos h, if_neg (h ▸ hitem)]
        · rw [if_neg h, if_neg h]

theorem putItem_putItem (name : String) (m n : Node) (items : List (String × Node)) :
    putItem name n (putItem name m items) = putItem name n items := by
  induction items with
  | nil => simp [putItem]
  | cons item items ih =>
      rw [putItem]
      by_cases hitem : item.1 = name
      · rw [if_pos hitem, putItem, putItem, if_pos rfl, if_pos hitem]
      · rw [if_neg hitem, putItem, putItem, if_neg hitem, if_neg hitem, ih]

theorem putItem_of_lookup {name : String} {n : Node} {items : List (String × Node)}
    (h : items.lookup name = some n) : putItem name n items = items := by
  induction items with
  | nil => simp at h
  | cons item items ih =>
      rw [lookup_cons_if] at h
      rw [putItem]
      by_cases hitem : item.1 = name
      · rw [if_pos hitem.symm] at h
        rw [if_pos hitem, ← hitem, ← Option.some.inj h]
      · rw [if_neg (Ne.symm hitem)] at h
        rw [if_neg hitem, ih h]

theorem map_fst_putItem {name : String} {m n : Node} {items : List (String × Node)}
    (h : items.lookup name = some m) : (putItem name n items).map (·.1) = items.map (·.1) := by
  induction items with
  | nil => simp at h
  | cons item items ih =>
      rw [lookup_cons_if] at h
      rw [putItem]
      by_cases hitem : item.1 = name
      · rw [if_pos hitem, List.map_cons, List.map_cons, hitem]
      · rw [if_neg (Ne.symm hitem)] at h
        rw [if_neg hitem, List.map_cons, List.map_cons, ih h]

theorem length_putItem {name : String} {m n : Node} {items : List (String × Node)}
    (h : items.lookup name = some m) : (putItem name n items).length = items.length := by
  simpa using congrArg List.length (map_fst_putItem (n := n) h)

theorem putItem_append {name : String} {items : List (String × Node)}
    (h : items.lookup name = none) (n : Node) (own : List (String × Node)) :
    putItem name n (items ++ own) = items ++ putItem name n own := by
  induction items with
  | nil => rfl
  | cons item items ih =>
      rw [lookup_cons_if] at h
      by_cases hitem : item.1 = name
      · simp [hitem] at h
      · rw [if_neg (Ne.symm hitem)] at h
        rw [List.cons_append, putItem, if_neg hitem, ih h, List.cons_append]

theorem putItem_of_lookup_none {name : String} {n : Node} {items : List (String × Node)}
    (h : items.lookup name = none) : putItem name n items = items ++ [(name, n)] := by
  have hend := putItem_append h n []
  rwa [List.append_nil] at hend

theorem filter_of_lookup_none {name : String} {items : List (String × Node)}
    (h : items.lookup name = none) : items.filter (fun item => item.1 != name) = items := by
  induction items with
  | nil => rfl
  | cons item items ih =>
      rw [lookup_cons_if] at h
      by_cases hitem : item.1 = name
      · simp [hitem] at h
      · rw [if_neg (Ne.symm hitem)] at h
        rw [List.filter_cons_of_pos (by simp [hitem]), ih h]

theorem lookup_filter_ne {name other : String} (h : other ≠ name) (items : List (String × Node)) :
    (items.filter fun item => item.1 != name).lookup other = items.lookup other := by
  induction items with
  | nil => rfl
  | cons item items ih =>
      by_cases hitem : item.1 = name
      · rw [List.filter_cons_of_neg (by simp [hitem]), ih, lookup_cons_if, if_neg (hitem ▸ h)]
      · rw [List.filter_cons_of_pos (by simp [hitem]), lookup_cons_if, lookup_cons_if, ih]

theorem lookup_eq_none_of_not_mem {name : String} {items : List (String × Node)}
    (h : name ∉ items.map (·.1)) : items.lookup name = none := by
  induction items with
  | nil => rfl
  | cons item items ih =>
      simp only [List.map_cons, List.mem_cons, not_or] at h
      rw [lookup_cons_if, if_neg h.1]
      exact ih h.2

theorem get?_append (p q : List String) (n : Node) :
    n.get? (p ++ q) = (n.get? p).bind (get? q) := by
  induction p generalizing n with
  | nil => rfl
  | cons name p ih =>
      rw [List.cons_append, get?, get?]
      cases n.items.lookup name with
      | none => rfl
      | some m => exact ih m

theorem eq_folder_of_lookup {n m : Node} {name : String} (h : n.items.lookup name = some m) :
    n = folder n.items := by
  cases n with
  | folder items => rfl
  | file content runs => simp [items] at h
  | link target => simp [items] at h

theorem isFolder_above {p q : List String} {name : String} {n m : Node}
    (h : n.get? (p ++ name :: q) = some m) : ∃ items, n.get? p = some (folder items) := by
  rw [get?_append] at h
  obtain ⟨above, habove, hbelow⟩ := Option.bind_eq_some_iff.mp h
  obtain ⟨next, hnext, -⟩ := Option.bind_eq_some_iff.mp hbelow
  exact ⟨above.items, by rw [habove, ← eq_folder_of_lookup hnext]⟩

theorem isFolder_root {p : List String} {n : Node} {items : List (String × Node)}
    (h : n.get? p = some (folder items)) : n.isFolder := by
  cases p with
  | nil =>
      rw [Option.some.inj h]
      rfl
  | cons name p =>
      obtain ⟨above, habove⟩ := isFolder_above (p := []) h
      rw [Option.some.inj habove]
      rfl

theorem put_cons {name : String} {n : Node} {items : List (String × Node)}
    (h : items.lookup name = some n) (p : List String) (new : Node) :
    (folder items).put (name :: p) new = folder (putItem name (n.put p new) items) := by
  cases p with
  | nil => rfl
  | cons next p => simp only [put, h]

/-- What is put at a path and below it goes into the node that lies there. -/
theorem put_put {p : List String} {n : Node} (h : (n.get? p).isSome) (q : List String)
    (m new : Node) : (n.put p m).put (p ++ q) new = n.put p (m.put q new) := by
  induction p generalizing n with
  | nil => rfl
  | cons name p ih =>
      obtain ⟨old, hold⟩ := Option.isSome_iff_exists.mp h
      obtain ⟨next, hnext, hrest⟩ := Option.bind_eq_some_iff.mp hold
      rw [eq_folder_of_lookup hnext]
      have hput : (putItem name (next.put p m) n.items).lookup name = some (next.put p m) := by
        rw [lookup_putItem, if_pos rfl]
      rw [put_cons hnext, List.cons_append, put_cons hput, put_cons hnext, putItem_putItem,
        ih (by rw [hrest]; rfl)]

theorem erase_put {p : List String} {n : Node} (h : (n.get? p).isSome) (name : String)
    (m : Node) : (n.put p m).erase (p ++ [name]) = n.put p (m.erase [name]) := by
  induction p generalizing n with
  | nil => rfl
  | cons first p ih =>
      obtain ⟨old, hold⟩ := Option.isSome_iff_exists.mp h
      obtain ⟨next, hnext, hrest⟩ := Option.bind_eq_some_iff.mp hold
      rw [eq_folder_of_lookup hnext]
      have hput : (putItem first (next.put p m) n.items).lookup first = some (next.put p m) := by
        rw [lookup_putItem, if_pos rfl]
      have herase : (folder (putItem first (next.put p m) n.items)).erase (first :: (p ++ [name])) =
          folder (putItem first ((next.put p m).erase (p ++ [name]))
            (putItem first (next.put p m) n.items)) := by
        cases p <;> simp [erase, hput]
      rw [put_cons hnext, List.cons_append, herase, putItem_putItem, put_cons hnext,
        ih (by rw [hrest]; rfl)]

theorem get?_put {p : List String} {n : Node} (h : (n.get? p).isSome) (q : List String)
    (m : Node) : (n.put p m).get? (p ++ q) = m.get? q := by
  induction p generalizing n with
  | nil => rfl
  | cons name p ih =>
      obtain ⟨old, hold⟩ := Option.isSome_iff_exists.mp h
      obtain ⟨next, hnext, hrest⟩ := Option.bind_eq_some_iff.mp hold
      rw [eq_folder_of_lookup hnext, put_cons hnext, List.cons_append, get?, items, lookup_putItem,
        if_pos rfl]
      exact ih (by rw [hrest]; rfl)

theorem put_of_get? {p : List String} {n m : Node} (h : n.get? p = some m) : n.put p m = n := by
  induction p generalizing n with
  | nil => exact (Option.some.inj h).symm
  | cons name p ih =>
      obtain ⟨next, hnext, hrest⟩ := Option.bind_eq_some_iff.mp h
      rw [eq_folder_of_lookup hnext, put_cons hnext, ih hrest, putItem_of_lookup hnext]

end Node

/-- A name that a folder may give to an item, and that stands for nothing else in a path. -/
structure Plain (name : String) : Prop where
  idle : Path.isIdle name = false
  up : name ≠ ".."
  slash : '/' ∉ name.toList
  long : Disk.isLong name = false
  nul : '\x00' ∉ name.toList

instance (name : String) : Decidable (Plain name) :=
  decidable_of_iff (Path.isIdle name = false ∧ name ≠ ".." ∧ '/' ∉ name.toList ∧
      Disk.isLong name = false ∧ '\x00' ∉ name.toList)
    ⟨fun h => ⟨h.1, h.2.1, h.2.2.1, h.2.2.2.1, h.2.2.2.2⟩,
      fun h => ⟨h.idle, h.up, h.slash, h.long, h.nul⟩⟩

/-- A path that goes down from the top of the disk by these names. -/
structure Spells (path : String) (names : List String) : Prop where
  absolute : Path.isAbsolute path
  parts : Path.parts path = "" :: names
  plain : ∀ name ∈ names, Plain name
  last : path.toList.getLast? ≠ some '/'
  nul : Disk.hasNul path = false
  short : path.utf8ByteSize ≤ Disk.longestPath

namespace Path

theorem isAbsolute_of_not_mem {name : String} (h : '/' ∉ name.toList) : isAbsolute name = false := by
  rw [isAbsolute, String.startsWith_string_eq_false_iff]
  intro hstart
  exact h (hstart.subset (by simp))

theorem endsWith_slash {path : String} (h : path.toList.getLast? ≠ some '/') :
    path.endsWith "/" = false := by
  rw [← String.endsWith_toSlice, String.Slice.endsWith_string_eq_false_iff]
  rintro ⟨front, hpath⟩
  refine h ?_
  have hlist : path.toList = front ++ ['/'] := by simpa using hpath.symm
  rw [hlist, List.getLast?_concat]

theorem bare_eq {path : String} (hne : path.toList ≠ []) (h : path.toList.getLast? ≠ some '/') :
    bare path = path := by
  have hkept : (path.toList.reverse.dropWhile (· == '/')).reverse = path.toList := by
    cases hreverse : path.toList.reverse with
    | nil => exact absurd (List.reverse_eq_nil_iff.mp hreverse) hne
    | cons c rest =>
        have hlast : path.toList.getLast? = some c := by
          rw [← List.head?_reverse, hreverse, List.head?_cons]
        have hc : (c == '/') = false := by
          rw [hlast] at h
          simpa using h
        rw [List.dropWhile_cons, hc, if_neg Bool.false_ne_true, ← hreverse, List.reverse_reverse]
  simp only [bare, hkept]
  rw [if_neg hne, String.ofList_toList]

end Path

namespace Spells

variable {path : String} {names : List String} {name : String}

theorem toList_ne_nil (h : Spells path names) : path.toList ≠ [] := by
  intro hnil
  obtain rfl : path = "" := String.toList_eq_nil_iff.mp hnil
  exact absurd h.absolute (by decide)

theorem bare_eq (h : Spells path names) : Path.bare path = path :=
  Path.bare_eq h.toList_ne_nil h.last

theorem join_eq (h : Spells path names) (hname : Plain name) :
    Path.join path name = path ++ "/" ++ name := by
  have hpath : path ≠ "" := fun he => h.toList_ne_nil (by rw [he]; rfl)
  rw [Path.join, Path.isAbsolute_of_not_mem hname.slash, if_neg Bool.false_ne_true, if_neg hpath,
    Path.endsWith_slash h.last, if_neg Bool.false_ne_true]

theorem join_inj (h : Spells path names) {other : String} (hname : Plain name)
    (hother : Plain other) (he : Path.join path name = Path.join path other) : name = other := by
  rw [h.join_eq hname, h.join_eq hother] at he
  have hlist := congrArg String.toList he
  simp only [String.toList_append] at hlist
  exact String.toList_inj.mp (List.append_cancel_left hlist)

theorem child (h : Spells path names) (hname : Plain name)
    (hshort : (path ++ "/" ++ name).utf8ByteSize ≤ Disk.longestPath) :
    Spells (Path.join path name) (names ++ [name]) := by
  have hne : name.toList ≠ [] := by
    intro hnil
    obtain rfl : name = "" := String.toList_eq_nil_iff.mp hnil
    exact absurd hname.idle (by decide)
  have htext : (path ++ "/" ++ name).toList = path.toList ++ '/' :: name.toList := by
    simp [String.toList_append]
  rw [h.join_eq hname]
  refine ⟨?_, ?_, ?_, ?_, ?_, hshort⟩
  · have hstart := h.absolute
    rw [Path.isAbsolute, String.startsWith_string_iff] at hstart ⊢
    rw [htext]
    exact hstart.trans (List.prefix_append _ _)
  · have hparts := h.parts
    rw [Path.parts] at hparts ⊢
    rw [htext, Text.splitAt_append, Text.splitAt_of_not_mem hname.slash, List.map_append, hparts]
    simp
  · intro other hother
    rcases List.mem_append.mp hother with hother | hother
    · exact h.plain other hother
    · rwa [List.mem_singleton.mp hother]
  · rw [htext, List.getLast?_append, List.getLast?_cons]
    cases hlast : name.toList.getLast? with
    | none => exact absurd (List.getLast?_eq_none_iff.mp hlast) hne
    | some c =>
        have hc : c ≠ '/' := ne_of_mem_of_not_mem (List.mem_of_getLast? hlast) hname.slash
        simpa using hc
  · have hnul := h.nul
    rw [Disk.hasNul] at hnul ⊢
    rw [htext]
    have := hname.nul
    simp_all

end Spells

namespace Disk

variable {root : Node} {follow : Bool}
  {jump : List String → List String → Except OsError (List String)} {done names : List String}
  {name path : String} {items : List (String × Node)} {d : Disk}

/-- Names that all lead to folders are gone along, whatever comes behind them. -/
theorem walkWith_names (hplain : ∀ name ∈ names, Plain name)
    (h : root.get? (done ++ names) = some (.folder items)) (rest : List String) :
    walkWith root follow jump done (names ++ rest) =
      walkWith root follow jump (done ++ names) rest := by
  induction names generalizing done with
  | nil => rw [List.nil_append, List.append_nil]
  | cons name names ih =>
      have hname := hplain name (by simp)
      obtain ⟨here, hhere⟩ := Node.isFolder_above h
      have hall : root.get? ((done ++ [name]) ++ names) = some (.folder items) := by simpa using h
      obtain ⟨below, hbelow⟩ : ∃ below, root.get? (done ++ [name]) = some (.folder below) := by
        cases names with
        | nil => exact ⟨items, by simpa using hall⟩
        | cons next names => exact Node.isFolder_above hall
      rw [List.cons_append, walkWith, hhere]
      simp only [hname.idle, hname.up, hname.long, hbelow]
      rw [if_neg Bool.false_ne_true, if_neg not_false, if_neg Bool.false_ne_true,
        ih (fun other hother => hplain other (by simp [hother])) hall]
      simp

theorem walkWith_last (hname : Plain name) (h : root.get? done = some (.folder items)) :
    walkWith root false jump done [name] = .ok (done ++ [name]) := by
  rw [walkWith, h]
  simp only [hname.idle, hname.up, hname.long]
  rw [if_neg Bool.false_ne_true, if_neg not_false, if_neg Bool.false_ne_true]
  split
  · rfl
  · rw [walkWith]

theorem resolveBy_eq (h : Spells path names) (hroot : root.isFolder) :
    resolveBy follow ⟨root, done⟩ path =
      walkWith root follow (walk root follow (mostLinks - 1)) [] names := by
  have hne : path ≠ "" := fun he => h.toList_ne_nil (by rw [he]; rfl)
  have hshort := Nat.not_lt.mpr h.short
  obtain ⟨items, rfl⟩ : ∃ items, root = .folder items := by
    cases root with
    | folder items => exact ⟨items, rfl⟩
    | file | link => cases hroot
  rw [resolveBy, if_neg hne, h.nul, if_neg Bool.false_ne_true, if_neg hshort, h.parts, start,
    if_pos h.absolute]
  rfl

/-- A path leads to the folder that it spells, and nothing that is in the folder changes that. -/
theorem resolveBy_folder (h : Spells path names) (hfolder : d.root.get? names = some (.folder items)) :
    resolveBy follow d path = .ok names := by
  have hwalk : walkWith d.root follow (walk d.root follow (mostLinks - 1)) [] (names ++ []) =
      walkWith d.root follow (walk d.root follow (mostLinks - 1)) ([] ++ names) [] :=
    walkWith_names h.plain (by simpa using hfolder) []
  rw [List.append_nil, List.nil_append] at hwalk
  rw [resolveBy_eq h (Node.isFolder_root hfolder), hwalk, walkWith]

theorem place_child (h : Spells path (names ++ [name]))
    (hfolder : d.root.get? names = some (.folder items)) :
    d.place path = .ok (names ++ [name]) := by
  have hplain := h.plain
  rw [place, resolveBy_eq h (Node.isFolder_root hfolder),
    walkWith_names (fun other hother => hplain other (by simp [hother])) (by simpa using hfolder),
    List.nil_append]
  exact walkWith_last (hplain name (by simp)) hfolder

end Disk

end FunctionJar
