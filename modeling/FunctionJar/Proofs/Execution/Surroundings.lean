import FunctionJar.Proofs.Disk.Item
import FunctionJar.Proofs.Execution.Leftovers

namespace FunctionJar

namespace Workspace

variable {d d' : Disk} {root path className : String} {held : List String} {index : Nat}

theorem bare_pick (d : Disk) (root : String) (held : List String) (index : Nat)
    (className : String) : Path.bare (pick d root held index className) =
      pick d root held index className := by
  obtain ⟨-, n, -, hn⟩ := freshName_fresh (stem index className) ""
    ((d.list root).toOption.getD [] ++ held.filterMap Path.fileName)
  have hne : (unique n).toList ≠ [] := by
    intro hnil
    have hlength := congrArg List.length hnil
    rw [unique, Text.padLeft, String.toList_append, String.toList_ofList, String.toList_ofList,
      List.length_append] at hlength
    have hpos := List.length_pos_iff.mpr (Nat.toDigits_ne_nil (n := n) (b := 16))
    simp only [List.length_nil] at hlength
    omega
  obtain ⟨front, c, hc⟩ := List.eq_nil_or_concat (unique n).toList |>.resolve_left hne
  rw [List.concat_eq_append] at hc
  have hslash : c ≠ '/' := by
    rintro rfl
    exact slash_not_mem_unique n (by rw [hc]; simp)
  have hlast : (freshName (stem index className) ""
      ((d.list root).toOption.getD [] ++ held.filterMap Path.fileName)).toList.getLast? = some c := by
    rw [hn, String.append_empty, String.toList_append, hc, ← List.append_assoc,
      List.getLast?_concat]
  exact (Path.bare_join hlast hslash).1

theorem allocate_ok (h : allocate d root held index className = .ok (path, d')) :
    ∃ made place, d.Widens made ∧ made.root.get? place = none ∧ made.Widens d' ∧
      d'.place path = .ok place := by
  obtain ⟨made, hmade, h⟩ := bind_ok h
  obtain ⟨d'', hd'', h⟩ := bind_ok h
  obtain ⟨rfl, rfl⟩ := Prod.mk.inj (Except.ok.inj h)
  have hwide : d.Widens made := by
    rw [← Disk.applied_of_apply (ok_of_mapError hmade)]
    exact Disk.widens_makeFolders root d
  have hmaking := ok_of_mapError hd''
  rw [Disk.apply] at hmaking
  obtain ⟨place, hplace, hnone, -⟩ := Disk.makeFolder_ok hmaking
  have hwider := Disk.widens_makeFolder hmaking
  rw [bare_pick] at hplace
  exact ⟨made, place, hwide, hnone, hwider, Disk.resolveBy_grows hwider.here hwider.grows hplace⟩

theorem leaf?_discard (d : Disk) (path : String) (q : List String) :
    (discard d path).root.leaf? q = d.root.leaf? q ∨
      ∃ place, d.place path = .ok place ∧ place <+: q ∧
        (discard d path).root.leaf? q = none := by
  rw [discard]
  cases hrelease : release d path with
  | error fault => exact .inl rfl
  | ok d' =>
      rw [release] at hrelease
      obtain ⟨-, h⟩ := check_ok hrelease
      obtain ⟨place, hplace, rfl⟩ := Disk.remove_ok (ok_of_mapError h)
      rcases Node.leaf?_erase place q d.root with hsame | ⟨hbelow, hnone⟩
      · exact .inl hsame
      · exact .inr ⟨place, hplace, hbelow, hnone⟩

end Workspace

namespace Execution

variable {cfg : Settings} {r : Registry} {cancelAt : Option Nat} {d : Disk}
  {units : List SourceUnit} {s t : State} {e : Ended} {q : List String}
  {places : List String → Prop}

/-- Whatever order the units go on in, the strategies leave the files and links at these places
alone, and no workspace comes to lie elsewhere while it's in use. -/
structure Spares (cfg : Settings) (r : Registry) (d : Disk) (units : List SourceUnit)
    (places : List String → Prop) : Prop where
  edits : ∀ s, Reaches (AnyTurn cfg r) (.init d units) s →
    ∀ a ∈ s.running, ∀ e rest, a.rest = .edit e :: rest → ∀ q, places q →
      (s.disk.applied e).root.leaf? q = s.disk.root.leaf? q
  workspaces : ∀ s t, Reaches (AnyTurn cfg r) (.init d units) s → AnyTurn cfg r s t →
    ∀ path ∈ s.held, path ∈ t.held → ∀ place,
      t.disk.place path = .ok place → s.disk.place path = .ok place

/-- A place has what it had at first, and no workspace lies above it if that was a file or a link. -/
structure State.Spared (d : Disk) (q : List String) (s : State) : Prop where
  leaf : s.disk.root.leaf? q = d.root.leaf? q
  apart : ∀ path ∈ s.held, ∀ place, s.disk.place path = .ok place → place <+: q →
    d.root.leaf? q = none

theorem State.Spared.discard (hs : s.Spared d q) {a : Active} (ha : a ∈ s.running) :
    (Workspace.discard s.disk a.workspace).root.leaf? q = d.root.leaf? q := by
  rcases Workspace.leaf?_discard s.disk a.workspace q with hsame | ⟨place, hplace, hbelow, hnone⟩
  · rw [hsame, hs.leaf]
  · rw [hnone, hs.apart _ (List.mem_map_of_mem ha) place hplace hbelow]

theorem Change.leaf_eq (h : Change cfg r s t) (hs : s.Spared d q)
    (hedits : ∀ a ∈ s.running, ∀ e rest, a.rest = .edit e :: rest →
      (s.disk.applied e).root.leaf? q = s.disk.root.leaf? q) :
    t.disk.root.leaf? q = d.root.leaf? q := by
  cases h with
  | collected => exact hs.leaf
  | refused => exact ((Disk.widens_makeFolders cfg.root s.disk).leaf q).trans hs.leaf
  | entered _ _ hspace =>
      obtain ⟨made, place, hwide, -, hwider, -⟩ := Workspace.allocate_ok hspace
      exact ((hwide.trans hwider).leaf q).trans hs.leaf
  | @continued before a after step rest _ hrunning _ _ hrest =>
      cases step with
      | edit e => exact (hedits a (by simp [hrunning]) e rest hrest).trans hs.leaf
      | sleep | note => exact hs.leaf
  | ended hrunning => exact hs.discard (by simp [hrunning])

theorem Change.held_or_new (h : Change cfg r s t) : ∀ path ∈ t.held, path ∈ s.held ∨
    ∃ made place, s.disk.Widens made ∧ made.root.get? place = none ∧
      t.disk.place path = .ok place := by
  intro path hpath
  cases h with
  | collected | refused => exact .inl hpath
  | entered _ _ hspace =>
      obtain ⟨made, place, hwide, hnone, -, hplace⟩ := Workspace.allocate_ok hspace
      simp only [State.held, List.map_append, List.mem_append] at hpath
      rcases hpath with hpath | hpath
      · exact .inl hpath
      · obtain rfl := List.mem_singleton.mp hpath
        exact .inr ⟨made, place, hwide, hnone, hplace⟩
  | @continued before a after step rest _ hrunning _ _ _ =>
      refine .inl ?_
      simpa [State.held, hrunning, Active.stepped] using hpath
  | ended hrunning =>
      refine .inl ?_
      simp only [State.held, hrunning, List.map_append, List.map_cons, List.mem_append,
        List.mem_cons] at hpath ⊢
      exact hpath.imp_right .inr

theorem AnyTurn.spared (h : AnyTurn cfg r s t) (hspares : Spares cfg r d units places)
    (hreach : Reaches (AnyTurn cfg r) (.init d units) s) (hq : places q) (hs : s.Spared d q) :
    t.Spared d q := by
  have hkept : ∀ path ∈ s.held, path ∈ t.held → ∀ place, t.disk.place path = .ok place →
      place <+: q → d.root.leaf? q = none := fun path hpath hlater place hplace =>
    hs.apart path hpath place (hspares.workspaces s t hreach h path hpath hlater place hplace)
  rcases h with h | h
  · obtain ⟨ms, hc⟩ := h.change
    have hlater : (s.later ms).Spared d q := ⟨hs.leaf, hs.apart⟩
    refine ⟨hc.leaf_eq hlater fun a ha e rest hrest =>
      hspares.edits s hreach a ha e rest hrest q hq, fun path hpath place hplace hbelow => ?_⟩
    rcases hc.held_or_new path hpath with hheld | ⟨made, place', hwide, hnone, hplace'⟩
    · exact hkept path hheld hpath place hplace hbelow
    · -- Nothing was at the place when the workspace was made, so nothing was below it.
      obtain rfl := Except.ok.inj (hplace.symm.trans hplace')
      obtain ⟨x, rfl⟩ := hbelow
      have hbefore : made.root.leaf? (place ++ x) = none := by
        rw [Node.leaf?, Node.see?_append, hnone, Option.bind_none, Option.filter_none]
      rw [← hs.leaf, ← hbefore]
      exact (hwide.leaf _).symm
  · cases h with
    | @intro before a after hrunning =>
        refine ⟨hs.discard (by simp [hrunning]), fun path hpath => hkept path ?_ hpath⟩
        simp only [State.held, hrunning, List.map_append, List.map_cons, List.mem_append,
          List.mem_cons] at hpath ⊢
        exact hpath.imp_right .inr

theorem Reaches.spared (h : Reaches (AnyTurn cfg r) (.init d units) s)
    (hspares : Spares cfg r d units places) (hq : places q) : s.Spared d q := by
  induction h with
  | refl => exact ⟨rfl, nofun⟩
  | @next s t hreach hstep ih => exact hstep.spared hspares hreach hq ih

theorem Returns.leaf_eq (h : Returns cfg r cancelAt d units e)
    (hspares : Spares cfg r d units places) (hq : places q) :
    e.state.disk.root.leaf? q = d.root.leaf? q := by
  cases h with
  | beforeStart | crowded => rfl
  | after _ _ hreach hgives =>
      obtain ⟨t, ht, -, hdisk⟩ := hgives.last
      rw [hdisk]
      exact ((hreach.trans ht).spared hspares hq).leaf

theorem spares_of_confined {top : List String} {items : List (String × Node)}
    (hroomy : Roomy cfg top items d units) (hconfined : AllConfined cfg r top d units) :
    Spares cfg r d units fun q => ¬ top <+: q where
  edits := by
    intro s hreach a ha e rest hrest q hq
    obtain ⟨own, hs⟩ := hreach.tidy hroomy hconfined
    obtain ⟨name, files, -, hpath, hfolder⟩ := hs.kept.housed a ha
    obtain ⟨files', hdisk⟩ := hconfined s hreach a ha e rest hrest name hpath _ files
      hs.kept.ground hfolder
    rw [hdisk, Node.leaf?, Disk.filled, Disk.withRoot, Node.see?_put hq]
    rfl
  workspaces := by
    intro s t hreach hstep path hpath hlater place hplace
    have hspells : ∀ u, Reaches (AnyTurn cfg r) (.init d units) u → path ∈ u.held →
        ∃ name, Workspace.Fits cfg.root name ∧ path = Path.join cfg.root name ∧
          u.disk.place path = .ok (top ++ [name]) := by
      intro u hu hheld
      obtain ⟨own, hkept⟩ := hu.tidy hroomy hconfined
      obtain ⟨a, ha, rfl⟩ := List.mem_map.mp hheld
      obtain ⟨name, files, hname, hjoin, -⟩ := hkept.kept.housed a ha
      exact ⟨name, hname, hjoin, hjoin ▸ hkept.kept.ground.place_child hname⟩
    obtain ⟨name, hname, hjoin, hs⟩ := hspells s hreach hpath
    obtain ⟨other, hother, hsame, ht⟩ := hspells t (.next hreach hstep) hlater
    obtain rfl := hroomy.ground.spells.join_inj hname.plain hother.plain (hjoin.symm.trans hsame)
    rw [hs, ← ht, hplace]

end Execution

end FunctionJar
