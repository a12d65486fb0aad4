import FunctionJar.Archive.Replace
import FunctionJar.Proofs.Disk.Item
import FunctionJar.Proofs.Workspace

namespace FunctionJar

namespace Archive

open Text (Bytes)

/-- The name of a file that is there only while it's being written. -/
def tempName (n : Nat) : String := ".udf-jar-" ++ unique n ++ ".tmp"

theorem toList_tempName (n : Nat) : ∃ middle,
    (tempName n).toList = '.' :: 'u' :: (middle ++ ['p']) ∧ '/' ∉ middle := by
  refine ⟨"df-jar-".toList ++ (unique n).toList ++ ".tm".toList, ?_, ?_⟩
  · simp [tempName]
  · simp [slash_not_mem_unique]

theorem itemName_tempName (n : Nat) : ItemName (tempName n) := by
  obtain ⟨middle, hmiddle, hslash⟩ := toList_tempName n
  refine ⟨?_, ?_, ?_⟩
  · have hempty : tempName n ≠ "" := fun he => by simp [he] at hmiddle
    have hdot : tempName n ≠ "." := fun he => by simp [he] at hmiddle
    simp [Path.isIdle, hempty, hdot]
  · intro he
    simp [he] at hmiddle
  · simp [hmiddle, hslash]

/-- A location at which a file may be that is still being written. -/
def Temporary (place : List String) : Prop := ∃ above n, place = above ++ [tempName n]

variable {d d' : Disk} {temp target : String} {above : List String}
  {items : List (String × Node)} {name : String}

/-- A folder with room for an item, which the path `temp` leads to once it's there. -/
structure Room (d : Disk) (temp : String) (above : List String) (items : List (String × Node))
    (name : String) : Prop where
  folder : d.root.get? above = some (.folder items)
  free : items.lookup name = none
  leads : ∀ d' : Disk, d'.here = d.here → d.root.Grows d'.root →
    (∀ target, d'.root.see? (above ++ [name]) ≠ some (.link target)) →
      ∀ follow, Disk.resolveBy follow d' temp = .ok (above ++ [name])
  bare : Path.bare temp = temp
  noSlash : temp.endsWith "/" = false

def taken (d : Disk) (above : List String) (items : List (String × Node)) (name : String)
    (content : Bytes) : Disk :=
  d.filled above (items ++ [(name, .file content false)])

namespace Room

theorem isSome (h : Room d temp above items name) : (d.root.get? above).isSome := by
  rw [h.folder]
  rfl

theorem get?_eq_none (h : Room d temp above items name) : d.root.get? (above ++ [name]) = none := by
  rw [Node.get?_append, h.folder, Option.bind_some, Node.get?, Node.items, h.free]
  rfl

theorem see?_ne_empty (h : Room d temp above items name) :
    d.root.see? (above ++ [name]) ≠ some .empty := by
  rw [Node.see?, h.get?_eq_none]
  exact (Option.some_ne_none _).symm

theorem opens (h : Room d temp above items name) : Disk.Open d.root (above ++ [name]) :=
  .inr ⟨above, name, rfl, Node.see?_eq_empty.mpr ⟨items, h.folder⟩⟩

theorem root_taken (h : Room d temp above items name) (content : Bytes) :
    (taken d above items name content).root =
      d.root.put (above ++ [name]) (.file content false) := by
  have hput := Node.put_put h.isSome [name] (.folder items) (.file content false)
  rw [Node.put_of_get? h.folder] at hput
  refine Eq.trans ?_ hput.symm
  exact congrArg (fun items => d.root.put above (.folder items))
    (Node.putItem_of_lookup_none h.free).symm

theorem get?_taken (h : Room d temp above items name) (content : Bytes) :
    (taken d above items name content).root.get? (above ++ [name]) = some (.file content false) := by
  rw [h.root_taken]
  exact h.opens.get?_put _

theorem leaf?_taken (h : Room d temp above items name) (content : Bytes) (q : List String) :
    (taken d above items name content).root.leaf? q =
      if q = above ++ [name] then some (.file content false) else d.root.leaf? q := by
  rw [h.root_taken]
  exact h.opens.leaf?_put h.see?_ne_empty content false q

theorem leads_taken (h : Room d temp above items name) (content : Bytes) (follow : Bool) :
    Disk.resolveBy follow (taken d above items name content) temp = .ok (above ++ [name]) := by
  refine h.leads (taken d above items name content) rfl ?_ ?_ follow
  · rw [h.root_taken]
    exact Node.grows_put (Node.clear_of_get?_none h.get?_eq_none) rfl rfl
  · intro target hlink
    rw [Node.see?, h.get?_taken] at hlink
    cases hlink

theorem root_put_taken (h : Room d temp above items name) (old new : Bytes) :
    (taken d above items name old).root.put (above ++ [name]) (.file new false) =
      (taken d above items name new).root := by
  have hitems : Node.putItem name (.file new false) (items ++ [(name, .file old false)]) =
      items ++ [(name, .file new false)] := by
    rw [Node.putItem_append h.free, Node.putItem, if_pos rfl]
  have hput := Node.put_put h.isSome [name] (.folder (items ++ [(name, .file old false)]))
    (.file new false)
  exact hput.trans (congrArg (fun items => d.root.put above (.folder items)) hitems)

theorem write (h : Room d temp above items name) (old new : Bytes) :
    (taken d above items name old).write temp new = .ok (taken d above items name new) := by
  rw [Disk.write, h.bare, Disk.resolve, h.leads_taken old true]
  simp only [bind, Except.bind, h.noSlash, h.get?_taken old, h.root_put_taken old new,
    Disk.withRoot]
  rfl

theorem erase (h : Room d temp above items name) (content : Bytes) :
    (taken d above items name content).root.erase (above ++ [name]) = d.root := by
  rw [taken, Disk.filled]
  refine (Node.erase_put h.isSome name _).trans ?_
  have hitems : (items ++ [(name, Node.file content false)]).filter (fun item => item.1 != name) =
      items := by
    rw [List.filter_append, Node.filter_of_lookup_none h.free]
    simp
  rw [Node.erase, hitems, Node.put_of_get? h.folder]

theorem remove (h : Room d temp above items name) (content : Bytes) :
    (taken d above items name content).remove temp = .ok d := by
  rw [Disk.remove, Disk.place, h.leads_taken content false]
  simp only [bind, Except.bind, h.get?_taken content, h.erase content]
  rfl

theorem open_of_open_taken (h : Room d temp above items name) {content : Bytes}
    {place : List String} (hopen : Disk.Open (taken d above items name content).root place) :
    Disk.Open d.root place ∧ (place = above ++ [name] ∨ ¬ above ++ [name] <+: place) := by
  have hclear : (taken d above items name content).root.Clear (above ++ [name]) := by
    intro n hn
    rw [Node.see?, h.get?_taken] at hn
    rw [← Option.some.inj hn]
    rfl
  rcases List.eq_nil_or_concat place with rfl | ⟨front, last, rfl⟩
  · exact ⟨.inl rfl, .inr (by simp)⟩
  · rw [List.concat_eq_append] at hopen ⊢
    have hfolder := hopen.above
    have hbeside : ¬ above ++ [name] <+: front := by
      rintro ⟨x, rfl⟩
      exact absurd (hclear.append x _ hfolder) Bool.false_ne_true
    refine ⟨.inr ⟨front, last, rfl, ?_⟩, ?_⟩
    · rwa [h.root_taken, Node.see?_put hbeside] at hfolder
    · by_cases hsame : front ++ [last] = above ++ [name]
      · exact .inl hsame
      · refine .inr fun hle => ?_
        rcases List.prefix_concat_iff.mp hle with he | hle
        · exact hsame he.symm
        · exact hbeside hle

theorem rename (h : Room d temp above items name) {content : Bytes}
    (hrename : (taken d above items name content).rename temp target = .ok d') : ∃ place,
      (taken d above items name content).place (Path.bare target) = .ok place ∧
        Disk.Open d.root place ∧ d.root.see? place ≠ some .empty ∧
          d' = d.withRoot (d.root.put place (.file content false)) := by
  obtain ⟨place, hplace, hfolder, rfl⟩ :=
    Disk.rename_ok (h.leads_taken content false) (h.get?_taken content) hrename
  obtain ⟨hopen, hbeside⟩ := h.open_of_open_taken (Disk.open_of_resolveBy hplace)
  refine ⟨place, hplace, hopen, ?_, by rw [h.erase]; rfl⟩
  rcases hbeside with rfl | hbeside
  · exact h.see?_ne_empty
  · rwa [h.root_taken, Node.see?_put hbeside] at hfolder

end Room

theorem room_of_write {folder : String} (hfolder : folder ≠ "")
    (h : d.write (tempPath d folder) [] = .ok d') : ∃ above items n,
      Room d (tempPath d folder) above items (tempName n) ∧
        d' = taken d above items (tempName n) [] := by
  obtain ⟨hfresh, n, -, hn⟩ :=
    freshName_fresh ".udf-jar-" ".tmp" ((d.list folder).toOption.getD [])
  rw [hn] at hfresh
  have hitem := itemName_tempName n
  obtain ⟨middle, hmiddle, -⟩ := toList_tempName n
  have hlast : (tempName n).toList.getLast? = some 'p' := by
    rw [hmiddle, ← List.cons_append, ← List.cons_append, List.getLast?_concat]
  have htemp : tempPath d folder = Path.join folder (tempName n) := by rw [tempPath, hn, tempName]
  obtain ⟨hbare, hnoSlash⟩ := Path.bare_join hlast (by decide)
  rw [htemp] at h ⊢
  rw [Disk.write, hbare] at h
  cases htarget : d.resolve (Path.join folder (tempName n)) with
  | error e => simp [htarget, bind, Except.bind] at h
  | ok place =>
      obtain ⟨above, items, habove, hitems, hleads⟩ := Disk.resolve_join hfolder hitem htarget
      have hfree : items.lookup (tempName n) = none := by
        have hlist : d.list folder = .ok (items.map (·.1)) := by
          rw [Disk.list, Disk.node, habove]
          simp only [bind, Except.bind, Disk.nodeAt, hitems]
          rfl
        rw [hlist] at hfresh
        exact Node.lookup_eq_none_of_not_mem hfresh
      have hroom : Room d (Path.join folder (tempName n)) above items (tempName n) :=
        ⟨hitems, hfree, fun d' hhere hgrows hlink follow =>
          hleads d' hhere hgrows follow (.inl hlink), hbare, hnoSlash⟩
      have hplace : place = above ++ [tempName n] := by
        have hsame := hleads d rfl (.refl _) true (.inl (by simp [Node.see?, hroom.get?_eq_none]))
        exact Except.ok.inj (htarget.symm.trans hsame)
      refine ⟨above, items, n, hroom, ?_⟩
      simp only [htarget, bind, Except.bind, hnoSlash, hplace, hroom.get?_eq_none] at h
      have hroot := hroom.root_taken []
      rw [← Except.ok.inj h, Disk.withRoot, ← hroot]
      rfl

end Archive

end FunctionJar
