import FunctionJar.Disk.Classes
import FunctionJar.Proofs.Disk.Folder
import FunctionJar.Proofs.Naming

namespace FunctionJar

theorem Text.join_concat (s : String) (front : List String) (last : String) :
    join s (front ++ [last]) = if front = [] then last else join s front ++ s ++ last := by
  apply String.toList_inj.mp
  induction front with
  | nil => simp [join]
  | cons part front ih =>
      rw [if_neg (List.cons_ne_nil _ _)]
      cases front <;> simp_all [join, String.toList_intercalate, List.intercalate]

theorem Plain.itemName {name : String} (h : Plain name) : ItemName name := ⟨h.idle, h.up, h.slash⟩

theorem Plain.size_pos {name : String} (h : Plain name) : 0 < name.utf8ByteSize := by
  refine Nat.pos_of_ne_zero fun hzero => ?_
  obtain rfl : name = "" := String.utf8ByteSize_eq_zero_iff.mp hzero
  exact absurd h.idle (by decide)

/-- Files and folders in which every item has a name of its own, and no links. -/
structure Node.Regular (tree : Node) : Prop where
  linkless : ∀ q target, tree.get? q ≠ some (.link target)
  plain : ∀ q items, tree.get? q = some (.folder items) → ∀ item ∈ items, Plain item.1
  distinct : ∀ q items, tree.get? q = some (.folder items) → (items.map (·.1)).Nodup

theorem Node.lookup_eq_some_iff_mem {items : List (String × Node)} {name : String} {n : Node}
    (hdistinct : (items.map (·.1)).Nodup) : items.lookup name = some n ↔ (name, n) ∈ items := by
  induction items with
  | nil => simp
  | cons item items ih =>
      obtain ⟨hfirst, hrest⟩ := List.nodup_cons.mp hdistinct
      rw [lookup_cons_if, List.mem_cons]
      by_cases hname : name = item.1
      · have hnot : (name, n) ∉ items := fun hmem =>
          hfirst (List.mem_map.mpr ⟨(name, n), hmem, hname⟩)
        rw [if_pos hname, or_iff_left hnot, Prod.ext_iff, Option.some.injEq]
        exact ⟨fun h => ⟨hname, h.symm⟩, fun h => h.2.symm⟩
      · rw [if_neg hname, ih hrest, or_iff_right fun h => hname (congrArg Prod.fst h)]

theorem Node.see?_eq_file {n : Node} {p : List String} {content : Text.Bytes} {runs : Bool} :
    n.see? p = some (.file content runs) ↔ n.get? p = some (.file content runs) := by
  rw [see?]
  cases n.get? p with
  | none => rfl
  | some m => cases m <;> simp [outside, empty]

theorem Node.isSome_see? (n : Node) (p : List String) : (n.see? p).isSome = (n.get? p).isSome :=
  Option.isSome_map

namespace Node.Regular

variable {tree n : Node} {q : List String} {name : String} {items : List (String × Node)}

theorem mem_iff (h : tree.Regular) (hq : tree.get? q = some (.folder items)) :
    (name, n) ∈ items ↔ tree.get? (q ++ [name]) = some n := by
  have hitem : (folder items).get? [name] = items.lookup name := by
    rw [get?, Node.items]
    cases items.lookup name <;> rfl
  rw [get?_append, hq, Option.bind_some, hitem, lookup_eq_some_iff_mem (h.distinct q items hq)]

theorem forall_plain (h : tree.Regular) (hq : (tree.get? q).isSome) : ∀ name ∈ q, Plain name := by
  intro name hname
  obtain ⟨n, hn⟩ := Option.isSome_iff_exists.mp hq
  obtain ⟨front, rest, rfl⟩ := List.append_of_mem hname
  obtain ⟨items, hitems⟩ := isFolder_above hn
  have hthere : (tree.get? (front ++ [name])).isSome := by
    rw [List.append_cons, get?_append] at hn
    obtain ⟨m, hm, -⟩ := Option.bind_eq_some_iff.mp hn
    rw [hm]
    rfl
  obtain ⟨m, hm⟩ := Option.isSome_iff_exists.mp hthere
  exact h.plain front items hitems (name, m) ((h.mem_iff hitems).mpr hm)

theorem file (content : Text.Bytes) (runs : Bool) : (Node.file content runs).Regular := by
  have hnone (q : List String) (n : Node) (hq : (Node.file content runs).get? q = some n) :
      n = .file content runs := by
    cases q with
    | nil => exact (Option.some.inj hq).symm
    | cons name q => cases hq
  refine ⟨fun q target hq => ?_, fun q items hq => ?_, fun q items hq => ?_⟩ <;>
    cases hnone q _ hq

theorem folder (hplain : ∀ item ∈ items, Plain item.1) (hdistinct : (items.map (·.1)).Nodup)
    (hitems : ∀ item ∈ items, item.2.Regular) : (Node.folder items).Regular := by
  have hbelow (name : String) (q : List String) (n : Node)
      (hq : (Node.folder items).get? (name :: q) = some n) :
      ∃ m : Node, m.Regular ∧ m.get? q = some n := by
    obtain ⟨m, hm, hn⟩ := Option.bind_eq_some_iff.mp hq
    exact ⟨m, hitems _ ((lookup_eq_some_iff_mem hdistinct).mp hm), hn⟩
  refine ⟨fun q target hq => ?_, fun q inner hq => ?_, fun q inner hq => ?_⟩
  · cases q with
    | nil => cases hq
    | cons name q =>
        obtain ⟨m, hm, hn⟩ := hbelow name q _ hq
        exact hm.linkless q target hn
  · cases q with
    | nil => exact Node.folder.inj (Option.some.inj hq) ▸ hplain
    | cons name q =>
        obtain ⟨m, hm, hn⟩ := hbelow name q _ hq
        exact hm.plain q inner hn
  · cases q with
    | nil => exact Node.folder.inj (Option.some.inj hq) ▸ hdistinct
    | cons name q =>
        obtain ⟨m, hm, hn⟩ := hbelow name q _ hq
        exact hm.distinct q inner hn

theorem isSome_above (hq : (tree.get? (q ++ [name])).isSome) :
    ∃ items, tree.get? q = some (.folder items) := by
  obtain ⟨m, hm⟩ := Option.isSome_iff_exists.mp hq
  exact isFolder_above hm

end Node.Regular

namespace Disk

/-- The path of what lies in a tree, whose own path is `root`. -/
def pathIn (root : String) (q : List String) : String := under root (Text.join "/" q)

variable {d : Disk} {root name : String} {top q : List String} {tree n : Node}
  {items : List (String × Node)}

section Path

theorem descends_join (hne : q ≠ []) (hplain : ∀ name ∈ q, Plain name) :
    Descends (Text.join "/" q) q where
  parts := Path.parts_of_join hne fun name hname => (hplain name hname).slash
  items name hname := (hplain name hname).itemName

theorem join_eq_empty_iff (hplain : ∀ name ∈ q, Plain name) : Text.join "/" q = "" ↔ q = [] := by
  constructor
  · intro he
    by_contra hne
    have hparts := (descends_join hne hplain).parts
    rw [he, show Path.parts "" = [""] from rfl] at hparts
    exact absurd (hplain "" (by simp [← hparts])).idle (by decide)
  · rintro rfl
    rfl

theorem pathIn_nil (root : String) : pathIn root [] = root := rfl

theorem pathIn_eq (hne : q ≠ []) (hplain : ∀ name ∈ q, Plain name) :
    pathIn root q = Path.join root (Text.join "/" q) := by
  rw [pathIn, under, if_neg (mt (join_eq_empty_iff hplain).mp hne)]

/-- The path of an item is that of its folder and its name, with at most a slash between them. -/
theorem exists_pathIn_concat (hroot : root ≠ "") (hplain : ∀ part ∈ q ++ [name], Plain part) :
    ∃ slash, (slash = "" ∨ slash = "/") ∧
      pathIn root (q ++ [name]) = pathIn root q ++ slash ++ name := by
  have hfront : ∀ name ∈ q, Plain name := fun other hother => hplain other (by simp [hother])
  have hne : q ++ [name] ≠ [] := by simp
  have hall := descends_join hne hplain
  rw [pathIn_eq hne hplain, Path.join_relative hroot hall.relative, Text.join_concat]
  by_cases hq : q = []
  · subst hq
    rw [if_pos rfl, pathIn_nil]
    split
    · exact ⟨"", .inl rfl, by rw [String.append_empty]⟩
    · exact ⟨"/", .inr rfl, by rw [String.append_assoc]⟩
  · refine ⟨"/", .inr rfl, ?_⟩
    rw [if_neg hq, pathIn_eq hq hfront,
      Path.join_relative hroot (descends_join hq hfront).relative]
    split <;> simp [String.append_assoc]

theorem size_pathIn_concat (hroot : root ≠ "") (hplain : ∀ part ∈ q ++ [name], Plain part) :
    (pathIn root q).utf8ByteSize + name.utf8ByteSize ≤
      (pathIn root (q ++ [name])).utf8ByteSize := by
  obtain ⟨slash, -, hpath⟩ := exists_pathIn_concat hroot hplain
  rw [hpath, String.utf8ByteSize_append, String.utf8ByteSize_append]
  omega

theorem length_le_size_pathIn (hroot : root ≠ "") (hplain : ∀ name ∈ q, Plain name) :
    root.utf8ByteSize + q.length ≤ (pathIn root q).utf8ByteSize := by
  induction q using List.reverseRecOn with
  | nil => simp [pathIn_nil]
  | append_singleton q name ih =>
      have hfront := ih fun other hother => hplain other (by simp [hother])
      have hlast := (hplain name (by simp)).size_pos
      have hsize := size_pathIn_concat hroot hplain
      rw [List.length_append, List.length_singleton]
      omega

theorem size_pathIn_append (hroot : root ≠ "") {rest : List String}
    (hplain : ∀ name ∈ q ++ rest, Plain name) :
    (pathIn root q).utf8ByteSize ≤ (pathIn root (q ++ rest)).utf8ByteSize := by
  induction rest using List.reverseRecOn with
  | nil => simp
  | append_singleton rest name ih =>
      rw [← List.append_assoc] at hplain ⊢
      have hfront := ih fun other hother => hplain other (List.mem_append_left _ hother)
      have hsize := size_pathIn_concat hroot hplain
      omega

theorem pathIn_ne_empty (hroot : root ≠ "") (hplain : ∀ name ∈ q, Plain name) :
    pathIn root q ≠ "" := by
  intro he
  have hsize := length_le_size_pathIn hroot hplain
  rw [he, String.utf8ByteSize_empty] at hsize
  exact hroot (String.utf8ByteSize_eq_zero_iff.mp (by omega))

theorem hasNul_pathIn (hroot : root ≠ "") (hnul : hasNul root = false)
    (hplain : ∀ name ∈ q, Plain name) : hasNul (pathIn root q) = false := by
  induction q using List.reverseRecOn with
  | nil => exact hnul
  | append_singleton q name ih =>
      obtain ⟨slash, hslash, hpath⟩ := exists_pathIn_concat hroot hplain
      have hname : hasNul name = false := by
        simpa [hasNul] using (hplain name (by simp)).nul
      have hfront := ih fun other hother => hplain other (by simp [hother])
      rw [hpath, hasNul_append, hasNul_append, hfront, hname]
      rcases hslash with rfl | rfl <;> rfl

theorem isAbsolute_pathIn (hroot : root ≠ "") (hplain : ∀ name ∈ q, Plain name) :
    Path.isAbsolute (pathIn root q) = Path.isAbsolute root := by
  by_cases hq : q = []
  · rw [hq, pathIn_nil]
  · rw [pathIn_eq hq hplain,
      Path.isAbsolute_join_relative hroot (descends_join hq hplain).relative]

/-- The parts of the tree's own path are gone along first, less an empty one at their end. -/
theorem parts_pathIn (hroot : root ≠ "") (hne : q ≠ []) (hplain : ∀ name ∈ q, Plain name) :
    ∃ above, Path.parts (pathIn root q) = above ++ q ∧
      (Path.parts root = above ∨ Path.parts root = above ++ [""]) := by
  have hjoin := descends_join hne hplain
  obtain ⟨above, hparts, habove⟩ := Path.parts_join_relative hroot hjoin.relative
  exact ⟨above, by rw [pathIn_eq hne hplain, hparts, hjoin.parts], habove⟩

end Path

/-- A path that leads to a folder with nothing but files and folders in it. -/
structure Rooted (d : Disk) (root : String) (top : List String) (tree : Node) : Prop where
  leads : d.resolve root = .ok top
  there : d.root.get? top = some tree
  regular : tree.Regular
  folder : tree.isFolder

/-- The path of an item is not longer than a path may be. -/
def Short (root : String) (q : List String) : Prop :=
  (pathIn root q).utf8ByteSize ≤ longestPath

instance (root : String) (q : List String) : Decidable (Short root q) :=
  inferInstanceAs (Decidable (_ ≤ _))

theorem Short.of_prefix {p : List String} (h : Short root p) (hroot : root ≠ "")
    (hplain : ∀ name ∈ p, Plain name) (hle : q <+: p) : Short root q := by
  obtain ⟨rest, rfl⟩ := hle
  exact Nat.le_trans (size_pathIn_append hroot hplain) h

theorem Short.length_lt (h : Short root q) (hroot : root ≠ "") (hplain : ∀ name ∈ q, Plain name) :
    q.length < longestPath := by
  have hsize := length_le_size_pathIn hroot hplain
  have hpos := mt String.utf8ByteSize_eq_zero_iff.mp hroot
  unfold Short at h
  omega

variable {links : Nat} {done parts place : List String}

theorem Goes.into {disk : Node} (h : Goes disk true links done parts place)
    (hplace : disk.get? place = some tree) (hregular : tree.Regular) (hq : (tree.get? q).isSome) :
    Goes disk true links done (parts ++ q) (place ++ q) := by
  induction q using List.reverseRecOn with
  | nil => rwa [List.append_nil, List.append_nil]
  | append_singleton q name ih =>
      have hname := hregular.forall_plain hq name (by simp)
      obtain ⟨items, hitems⟩ := Node.Regular.isSome_above hq
      have hseen (r : List String) : disk.get? (place ++ r) = tree.get? r := by
        rw [Node.get?_append, hplace, Option.bind_some]
      have hfolder : disk.see? (place ++ q) = some .empty :=
        Node.see?_eq_empty.mpr ⟨items, by rw [hseen, hitems]⟩
      rw [← List.append_assoc, ← List.append_assoc]
      refine (ih (by rw [hitems]; rfl)).append
        (.down hfolder hname.idle hname.up hname.long (.inl fun target hlink => ?_))
      rw [Node.see?_eq_link, List.append_assoc, hseen] at hlink
      exact hregular.linkless _ target hlink

namespace Rooted

theorem root_ne_empty (h : Rooted d root top tree) : root ≠ "" :=
  (resolveBy_ok_iff.mp h.leads).1

theorem short_nil (h : Rooted d root top tree) : Short root [] :=
  (resolveBy_ok_iff.mp h.leads).2.2.1

theorem resolve (h : Rooted d root top tree) (hq : (tree.get? q).isSome) :
    d.resolve (pathIn root q) = if Short root q then .ok (top ++ q) else .error .nameTooLong := by
  have hplain := h.regular.forall_plain hq
  have hroot := h.root_ne_empty
  obtain ⟨-, hnul, -, hgoes⟩ := resolveBy_ok_iff.mp h.leads
  have hempty := pathIn_ne_empty hroot hplain
  have hnul' := hasNul_pathIn hroot hnul hplain
  split
  · next hshort =>
      refine resolveBy_ok_iff.mpr ⟨hempty, hnul', hshort, ?_⟩
      rw [start, isAbsolute_pathIn hroot hplain, ← start]
      by_cases hne : q = []
      · rwa [hne, pathIn_nil, List.append_nil]
      · obtain ⟨above, hparts, habove⟩ := parts_pathIn hroot hne hplain
        rw [hparts]
        refine Goes.into ?_ h.there h.regular hq
        rcases habove with habove | habove
        · rwa [← habove]
        · rw [habove] at hgoes
          obtain ⟨place, hplace, hfolder, -⟩ := hgoes.front
          rwa [hgoes.unique (hplace.append (.stay hfolder rfl))]
  · next hlong =>
      rw [Disk.resolve, resolveBy, if_neg hempty, hnul', if_neg Bool.false_ne_true,
        if_pos (Nat.lt_of_not_le hlong)]

theorem node (h : Rooted d root top tree) (hn : tree.get? q = some n) :
    d.node (pathIn root q) = if Short root q then .ok n else .error .nameTooLong := by
  have hthere : d.root.get? (top ++ q) = some n := by
    rw [Node.get?_append, h.there, Option.bind_some, hn]
  rw [Disk.node, h.resolve (by rw [hn]; rfl)]
  split
  · rw [ok_bind, nodeAt, hthere]
  · rfl

theorem isFolder (h : Rooted d root top tree) (hn : tree.get? q = some n) :
    d.isFolder (pathIn root q) = (decide (Short root q) && n.isFolder) := by
  rw [Disk.isFolder, h.node hn]
  by_cases hshort : Short root q <;> simp [hshort]

theorem list (h : Rooted d root top tree) (hq : tree.get? q = some (.folder items))
    (hshort : Short root q) : d.list (pathIn root q) = .ok (items.map (·.1)) := by
  rw [Disk.list, h.node hq, if_pos hshort]
  rfl

theorem read {content : Text.Bytes} {runs : Bool} (h : Rooted d root top tree)
    (hq : tree.get? q = some (.file content runs)) (hshort : Short root q) :
    d.read (pathIn root q) = .ok content := by
  rw [Disk.read, h.node hq, if_pos hshort]
  rfl

theorem read_of_not_short (h : Rooted d root top tree) (hq : (tree.get? q).isSome)
    (hlong : ¬ Short root q) : d.read (pathIn root q) = .error .nameTooLong := by
  obtain ⟨n, hn⟩ := Option.isSome_iff_exists.mp hq
  rw [Disk.read, h.node hn, if_neg hlong]
  rfl

end Rooted

end Disk

end FunctionJar
