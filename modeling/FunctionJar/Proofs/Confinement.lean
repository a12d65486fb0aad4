import FunctionJar.Proofs.Disk.Folder
import FunctionJar.Proofs.Naming

namespace FunctionJar.Workspace

open Disk (Holds Within)

variable {d d' : Disk} {base root name path w : String} {place names : List String}
  {content : Text.Bytes}

theorem absolute_ne_empty (d : Disk) (root : String) : absolute d root ≠ "" := by
  unfold absolute
  split
  · next h =>
      rintro rfl
      exact absurd h (by decide)
  · next h =>
      have hbase : ∀ rest, "/" ++ Text.join "/" d.here ++ rest ≠ "" := by
        intro rest he
        simpa using congrArg String.toList he
      rw [Path.join, if_neg h, if_neg (by simp)]
      split
      · exact hbase root
      · rw [String.append_assoc]
        exact hbase _

theorem holds_makeFolder (hbase : base ≠ "") (hname : ItemName name)
    (h : d.makeFolder (Path.join base name) = .ok d') :
    ∃ place, d'.Holds (Path.join base name) place := by
  obtain ⟨above, hparts, hfront⟩ := Path.parts_join hbase hname.slash
  obtain ⟨target, htarget, hnone, rfl⟩ := Disk.makeFolder_ok h
  rw [Path.bare_of_parts hparts hname] at htarget
  obtain ⟨up, items, -, hup, hleads⟩ := Disk.resolve_join hbase hname htarget
  obtain rfl : target = up ++ [name] :=
    Except.ok.inj (htarget.symm.trans (hleads d rfl (.refl _) false (.inr rfl)))
  have hput := (Disk.open_of_resolveBy htarget).get?_put .empty
  have hlinkless (q : List String) (target : String) :
      (d.root.put (up ++ [name]) .empty).see? (up ++ [name] ++ q) ≠ some (.link target) := by
    intro hlink
    rw [Node.see?_append, hput, Option.bind_some] at hlink
    cases q <;> simp [Node.see?, Node.get?, Node.items, Node.empty, Node.outside] at hlink
  refine ⟨up ++ [name], fun follow => ?_, Node.see?_eq_empty.mpr ⟨[], hput⟩, hlinkless, above, name,
    ?_, hparts, hname⟩
  · have hgrows := (Disk.widens_put hnone).grows
    refine hleads (d.withRoot (d.root.put (up ++ [name]) .empty)) rfl hgrows follow
      (.inl fun target => ?_)
    have hself := hlinkless [] target
    rwa [List.append_nil] at hself
  · rintro rfl
    rcases hfront with hnil | hempty
    · rw [Path.parts, List.map_eq_nil_iff] at hnil
      exact Text.splitAt_ne_nil _ _ hnil
    · exact hbase (Path.parts_injective hempty)

theorem allocate_item {held : List String} {index : Nat} (hname : ClassName.Valid name)
    (h : allocate d root held index name = .ok (w, d')) :
    ∃ (base item : String) (made : Disk), base ≠ "" ∧ ItemName item ∧
      item ∉ held.filterMap Path.fileName ∧ w = Path.join base item ∧
        made.makeFolder w = .ok d' := by
  obtain ⟨made, -, h⟩ := bind_ok h
  obtain ⟨d'', hfolder, h⟩ := bind_ok h
  obtain ⟨rfl, rfl⟩ := Prod.mk.inj (Except.ok.inj h)
  obtain ⟨hfree, n, -, hfresh⟩ := freshName_fresh (stem index name) ""
    ((made.list root).toOption.getD [] ++ held.filterMap Path.fileName)
  have hitem : ItemName (stem index name ++ unique n ++ "") := by
    rw [String.append_assoc]
    exact itemName_stem index hname (by simpa using slash_not_mem_unique n)
  rw [← hfresh] at hitem
  exact ⟨absolute made root, _, made, absolute_ne_empty made root, hitem,
    fun hheld => hfree (List.mem_append_right _ hheld), rfl, ok_of_mapError hfolder⟩

theorem holds_allocate {held : List String} {index : Nat} (hname : ClassName.Valid name)
    (h : allocate d root held index name = .ok (w, d')) : ∃ place, d'.Holds w place := by
  obtain ⟨base, item, made, hbase, hitem, -, rfl, hfolder⟩ := allocate_item hname h
  exact holds_makeFolder hbase hitem hfolder

theorem allocate_fresh {held : List String} {index : Nat} (hname : ClassName.Valid name)
    (h : allocate d root held index name = .ok (w, d')) : w ∉ held := by
  obtain ⟨base, item, made, hbase, hitem, hfree, rfl, -⟩ := allocate_item hname h
  exact fun hheld => hfree (List.mem_filterMap.mpr ⟨_, hheld, Path.fileName_join hbase hitem⟩)

theorem exists_writeEdits (h : d.Holds w place) (hpath : Descends path names)
    (content : Text.Bytes) : ∃ parent front, (∀ name ∈ front, ItemName name) ∧
      Path.parts parent = Path.parts w ++ front ∧
      writeEdits w path content = [(.makeFolders parent, Fault.create parent),
        (.write (Path.join w path) content, Fault.write (Path.join w path))] := by
  obtain ⟨above, last, habove, hw, hlast⟩ := h.named
  have htarget := Descends.parts_join hw hlast hpath
  obtain ⟨front, name, rfl⟩ := (List.eq_nil_or_concat names).resolve_left hpath.ne_nil
  rw [List.concat_eq_append] at hpath htarget
  have hfront : ∀ name ∈ front, ItemName name := fun item hitem =>
    hpath.items item (List.mem_append_left _ hitem)
  obtain ⟨parent, hparent, hparts⟩ :=
    h.parent hfront (hpath.items name (by simp)) (by rw [htarget, List.append_assoc])
  refine ⟨parent, front, hfront, hparts, ?_⟩
  simp only [writeEdits, hparent]
  rfl

/-- The disk after the first edits of a write, each as far as it could be done. -/
def written (d : Disk) (w path : String) (content : Text.Bytes) (k : Nat) : Disk :=
  ((writeEdits w path content).take k).foldl (fun d e => d.applied e.1) d

theorem within_write (h : d.Holds w place) (hpath : Descends path names) (content : Text.Bytes) :
    Within place d (d.applied (.write (Path.join w path) content)) := by
  obtain ⟨above, last, habove, hw, hlast⟩ := h.named
  cases hwrite : d.write (Path.join w path) content with
  | error e =>
      have hstill : d.applied (.write (Path.join w path) content) = d :=
        congrArg (fun o : Except OsError Disk => o.toOption.getD d) hwrite
      rw [hstill]
      exact .refl place d
  | ok d' =>
      rw [Disk.applied_of_apply (e := .write _ content) hwrite]
      exact (h.write hpath.items (Descends.parts_join hw hlast hpath) hwrite).1

theorem within_written (h : d.Holds w place) (hpath : Descends path names) (content : Text.Bytes)
    (k : Nat) : Within place d (written d w path content k) := by
  obtain ⟨parent, front, hfront, hparent, hedits⟩ := exists_writeEdits h hpath content
  have hmade := h.makeFolders hfront hparent
  rw [written, hedits]
  match k with
  | 0 => exact .refl place d
  | 1 => exact hmade
  | k + 2 =>
      rw [List.take_of_length_le (by simp), List.foldl_cons, List.foldl_cons, List.foldl_nil]
      exact hmade.trans (within_write (h.within hmade) hpath content)

theorem get?_of_writeFile (h : d.Holds w place) (hpath : Descends path names)
    (hwrite : writeFile d w path content = .ok d') :
    ∃ runs, d'.root.get? (place ++ names) = some (.file content runs) := by
  obtain ⟨above, last, habove, hw, hlast⟩ := h.named
  obtain ⟨parent, front, hfront, hparent, hedits⟩ := exists_writeEdits h hpath content
  rw [writeFile, hedits, List.foldlM_cons] at hwrite
  obtain ⟨made, hmade, hwrite⟩ := bind_ok hwrite
  rw [List.foldlM_cons] at hwrite
  obtain ⟨after, hfile, hwrite⟩ := bind_ok hwrite
  obtain rfl := Except.ok.inj hwrite
  have hwithin := h.makeFolders hfront hparent
  rw [Disk.applied_of_apply (ok_of_mapError hmade)] at hwithin
  exact ((h.within hwithin).write hpath.items (Descends.parts_join hw hlast hpath)
    (ok_of_mapError hfile)).2

end FunctionJar.Workspace
