import FunctionJar.Proofs.Disk
import FunctionJar.Proofs.Except
import FunctionJar.Workspace

namespace FunctionJar

def hexDigit (c : Char) : Nat := ((List.range 16).find? fun n => Nat.digitChar n == c).getD 0

def hexValue (digits : List Char) : Nat := digits.foldl (fun v c => v * 16 + hexDigit c) 0

theorem hexValue_toDigits (n : Nat) : hexValue (Nat.toDigits 16 n) = n := by
  induction n using Nat.strongRecOn with
  | ind n ih =>
      have hdigit : ∀ m < 16, hexDigit (Nat.digitChar m) = m := by decide
      by_cases hsmall : n < 16
      · rw [Nat.toDigits_of_lt_base hsmall]
        simp [hexValue, hdigit n hsmall]
      · rw [Nat.toDigits_of_base_le (by decide) (by omega), hexValue, List.foldl_append]
        have hfront := ih (n / 16) (by omega)
        rw [hexValue] at hfront
        rw [hfront, List.foldl_cons, List.foldl_nil, hdigit _ (Nat.mod_lt _ (by decide))]
        omega

theorem hexValue_unique (n : Nat) : hexValue (unique n).toList = n := by
  have hzeros : ∀ k cs, hexValue (List.replicate k '0' ++ cs) = hexValue cs := by
    intro k cs
    induction k with
    | zero => rfl
    | succ k ih => exact ih
  rw [unique, Text.padLeft, String.toList_append, String.toList_ofList, String.toList_ofList,
    hzeros, hexValue_toDigits]

theorem eq_of_append_unique {start ending : String} {m n : Nat}
    (h : start ++ unique m ++ ending = start ++ unique n ++ ending) : m = n := by
  have hlist := congrArg String.toList h
  simp only [String.toList_append] at hlist
  have hunique := List.append_cancel_left (List.append_cancel_right hlist)
  rw [← hexValue_unique m, ← hexValue_unique n, hunique]

theorem slash_not_mem_unique (n : Nat) : '/' ∉ (unique n).toList := by
  have hdigits : '/' ∉ Nat.toDigits 16 n := by
    induction n using Nat.strongRecOn with
    | ind n ih =>
        have hdigit : ∀ m < 16, Nat.digitChar m ≠ '/' := by decide
        by_cases hsmall : n < 16
        · rw [Nat.toDigits_of_lt_base hsmall]
          exact fun hmem => hdigit n hsmall (List.mem_singleton.mp hmem).symm
        · rw [Nat.toDigits_of_base_le (by decide) (by omega), List.mem_append]
          have hlast := hdigit (n % 16) (Nat.mod_lt _ (by decide))
          rintro (hfront | hmem)
          · exact ih (n / 16) (by omega) hfront
          · exact hlast (List.mem_singleton.mp hmem).symm
  rw [unique, Text.padLeft, String.toList_append, String.toList_ofList, String.toList_ofList]
  simp [hdigits]

theorem freshName_fresh (start ending : String) (taken : List String) :
    freshName start ending taken ∉ taken ∧
      ∃ n ≤ taken.length, freshName start ending taken = start ++ unique n ++ ending := by
  let names := (List.range (taken.length + 1)).map fun n => start ++ unique n ++ ending
  have hnodup : names.Nodup := by
    refine List.Pairwise.map _ ?_ List.nodup_range
    intro m n hne he
    exact hne (eq_of_append_unique he)
  have hsome : ∃ name ∈ names, name ∉ taken := by
    refine Classical.byContradiction fun hnone => ?_
    have hsubset : names ⊆ taken := fun name hname =>
      Classical.byContradiction fun hfree => hnone ⟨name, hname, hfree⟩
    have hlength := hnodup.length_le_of_subset hsubset
    simp only [names, List.length_map, List.length_range] at hlength
    omega
  obtain ⟨name, hname, hfree⟩ := hsome
  obtain ⟨found, hfound⟩ : ∃ found, names.find? (fun n => !taken.contains n) = some found := by
    refine Option.isSome_iff_exists.mp (List.find?_isSome.mpr ⟨name, hname, ?_⟩)
    simpa using hfree
  have hfresh : freshName start ending taken = found := by
    rw [freshName]
    exact congrArg (Option.getD · _) hfound
  rw [hfresh]
  refine ⟨by simpa using List.find?_some hfound, ?_⟩
  obtain ⟨n, hn, he⟩ := List.mem_map.mp (List.mem_of_find?_eq_some hfound)
  rw [List.mem_range] at hn
  exact ⟨n, by omega, he.symm⟩

def Disk.filled (d : Disk) (top : List String) (items : List (String × Node)) : Disk :=
  d.withRoot (d.root.put top (.folder items))

namespace Workspace

/-- The root of the workspaces is a folder, with these items in it. -/
structure Ground (root : String) (top : List String) (items : List (String × Node)) (d : Disk) :
    Prop where
  spells : Spells root top
  folder : d.root.get? top = some (.folder items)

structure Fits (root name : String) : Prop where
  plain : Plain name
  short : (root ++ "/" ++ name).utf8ByteSize ≤ Disk.longestPath

instance (root name : String) : Decidable (Fits root name) :=
  decidable_of_iff (Plain name ∧ (root ++ "/" ++ name).utf8ByteSize ≤ Disk.longestPath)
    ⟨fun h => ⟨h.1, h.2⟩, fun h => ⟨h.plain, h.short⟩⟩

/-- An edit changes nothing on a disk but what is in the folder of a workspace. -/
def StaysIn (root : String) (top : List String) (name : String) (e : Edit) (d : Disk) : Prop :=
  ∀ items files, Ground root top items d → items.lookup name = some (.folder files) →
    ∃ files', d.applied e = d.filled top (Node.putItem name (.folder files') items)

namespace Ground

variable {root name : String} {top : List String} {items files : List (String × Node)} {d : Disk}

theorem isSome (h : Ground root top items d) : (d.root.get? top).isSome := by
  rw [h.folder]
  rfl

theorem filled (h : Ground root top items d) (items' : List (String × Node)) :
    Ground root top items' (d.filled top items') where
  spells := h.spells
  folder := by
    have hput := Node.get?_put h.isSome [] (.folder items')
    rwa [List.append_nil] at hput

theorem filled_self (h : Ground root top items d) : d.filled top items = d := by
  rw [Disk.filled, Node.put_of_get? h.folder]
  rfl

theorem child (h : Ground root top items d) (hname : Fits root name) :
    Spells (Path.join root name) (top ++ [name]) :=
  h.spells.child hname.plain hname.short

theorem get?_child (h : Ground root top items d) :
    d.root.get? (top ++ [name]) = items.lookup name := by
  rw [Node.get?_append, h.folder, Option.bind_some, Node.get?, Node.items]
  cases items.lookup name <;> rfl

theorem place_child (h : Ground root top items d) (hname : Fits root name) :
    d.place (Path.join root name) = .ok (top ++ [name]) :=
  Disk.place_child (h.child hname) h.folder

theorem makeFolder (h : Ground root top items d) (hname : Fits root name)
    (hfree : items.lookup name = none) :
    d.makeFolder (Path.join root name) = .ok (d.filled top (items ++ [(name, .empty)])) := by
  have hput : d.root.put (top ++ [name]) .empty =
      d.root.put top (.folder (items ++ [(name, .empty)])) := by
    have hself := h.filled_self
    rw [← Node.putItem_of_lookup_none hfree]
    refine Eq.trans ?_ (Node.put_put h.isSome [name] (.folder items) .empty)
    rw [Node.put_of_get? h.folder]
  rw [Disk.makeFolder, (h.child hname).bare_eq, h.place_child hname]
  simp only [bind, Except.bind, h.get?_child, hfree, hput]
  rfl

theorem haveFolder (h : Ground root top items d) : d.haveFolder root = .ok d := by
  have hmade : d.makeFolder root = .error .taken := by
    rw [Disk.makeFolder, h.spells.bare_eq, Disk.place, Disk.resolveBy_folder h.spells h.folder]
    simp only [bind, Except.bind, h.folder]
    rfl
  have hfolder : d.isFolder root = true := by
    rw [Disk.isFolder, Disk.node, Disk.resolve, Disk.resolveBy_folder h.spells h.folder]
    simp only [bind, Except.bind, Disk.nodeAt, h.folder]
    rfl
  rw [Disk.haveFolder, hmade]
  simp only [hfolder, if_true]

theorem makeFolders (h : Ground root top items d) : d.makeFolders root = (d, none) := by
  rw [Disk.makeFolders, Path.ancestors]
  cases (Path.parts root).length with
  | zero => rfl
  | succ n =>
      rw [Path.ancestorsFrom]
      cases Path.parent root with
      | none => rfl
      | some above => simp only [Disk.makeChain, h.haveFolder]

theorem list (h : Ground root top items d) : d.list root = .ok (items.map (·.1)) := by
  rw [Disk.list, Disk.node, Disk.resolve, Disk.resolveBy_folder h.spells h.folder]
  simp only [bind, Except.bind, Disk.nodeAt, h.folder]
  rfl

/-- A unit gets a new folder below the root, with a name that nothing had before. -/
theorem allocate {held : List String} {index : Nat} {className : String}
    (h : Ground root top items d)
    (hroom : ∀ n ≤ items.length + held.length, Fits root (stem index className ++ unique n)) :
    ∃ name, Fits root name ∧ items.lookup name = none ∧
      Workspace.allocate d root held index className =
        .ok (Path.join root name, d.filled top (items ++ [(name, .empty)])) := by
  let taken := (d.list root).toOption.getD [] ++ held.filterMap Path.fileName
  obtain ⟨hfresh, n, hn, he⟩ := freshName_fresh (stem index className) "" taken
  have htaken : taken = items.map (·.1) ++ held.filterMap Path.fileName := by
    simp [taken, h.list, Except.toOption]
  have hlength : taken.length ≤ items.length + held.length := by
    have hheld := List.length_filterMap_le Path.fileName held
    rw [htaken, List.length_append, List.length_map]
    omega
  have hname : Fits root (freshName (stem index className) "" taken) := by
    rw [he, String.append_empty]
    exact hroom n (by omega)
  have hfree : items.lookup (freshName (stem index className) "" taken) = none := by
    have hitems : items.map (·.1) ⊆ taken := by
      rw [htaken]
      exact List.subset_append_left _ _
    exact Node.lookup_eq_none_of_not_mem fun hmem => hfresh (hitems hmem)
  refine ⟨_, hname, hfree, ?_⟩
  have hpick : pick d root held index className =
      Path.join root (freshName (stem index className) "" taken) := by
    rw [pick, absolute, if_pos h.spells.absolute]
  rw [Workspace.allocate]
  simp only [Disk.apply, h.makeFolders, hpick, h.makeFolder hname hfree, mapError_ok, bind,
    Except.bind]
  rfl

theorem release (h : Ground root top items d) (hname : Fits root name)
    (hfolder : items.lookup name = some (.folder files)) :
    Workspace.release d (Path.join root name) =
      .ok (d.filled top (items.filter fun item => item.1 != name)) := by
  have hget : d.root.get? (top ++ [name]) = some (.folder files) := by rw [h.get?_child, hfolder]
  have hread : (d.read (Path.join root name)).isOk = false := by
    rw [Disk.read, Disk.node, Disk.resolve, Disk.resolveBy_folder (h.child hname) hget]
    simp only [bind, Except.bind, Disk.nodeAt, hget]
    rfl
  have herase : d.root.erase (top ++ [name]) =
      d.root.put top (.folder (items.filter fun item => item.1 != name)) := by
    refine Eq.trans ?_ (Node.erase_put h.isSome name (.folder items))
    rw [Node.put_of_get? h.folder]
  have hremove : d.remove (Path.join root name) =
      .ok (d.filled top (items.filter fun item => item.1 != name)) := by
    rw [Disk.remove, h.place_child hname]
    simp only [bind, Except.bind, hget, herase]
    rfl
  rw [Workspace.release, hread]
  simp only [Disk.apply, hremove, mapError_ok, bind, Except.bind]
  rfl

end Ground

end Workspace

end FunctionJar
