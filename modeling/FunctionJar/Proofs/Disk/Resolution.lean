import FunctionJar.Proofs.Disk.Sight
import FunctionJar.Proofs.Except

namespace FunctionJar.Disk

variable {root root' : Node} {follow jumps : Bool} {links : Nat}
  {done done' rest parts parts' : List String} {part name : String} {place : List String}
  {jump jump' : List String → List String → Except OsError (List String)}

/-- From `done` a part of a path leads on to `done'`, with `parts'` left to go. Where it is a link
that is left for another path, this begins with a jump. -/
inductive Stride (root : Node) (follow : Bool) (done : List String) (part : String)
    (rest : List String) : Bool → List String → List String → Prop
  | stay (hfolder : root.see? done = some .empty) (hidle : Path.isIdle part) :
      Stride root follow done part rest false done rest
  | up (hfolder : root.see? done = some .empty) (hup : part = "..") :
      Stride root follow done part rest false done.dropLast rest
  | down (hfolder : root.see? done = some .empty) (hidle : Path.isIdle part = false)
      (hup : part ≠ "..") (hlong : isLong part = false)
      (hlink : (∀ target, root.see? (done ++ [part]) ≠ some (.link target)) ∨
        rest = [] ∧ follow = false) :
      Stride root follow done part rest false (done ++ [part]) rest
  | jump {target : String} (hfolder : root.see? done = some .empty)
      (hidle : Path.isIdle part = false) (hup : part ≠ "..") (hlong : isLong part = false)
      (hlink : root.see? (done ++ [part]) = some (.link target))
      (hgo : rest ≠ [] ∨ follow = true) :
      Stride root follow done part rest true (if Path.isAbsolute target then [] else done)
        (Path.parts target ++ rest)

theorem exists_stride (h : walkWith root follow jump done (part :: rest) = .ok place) :
    ∃ jumps done' parts', Stride root follow done part rest jumps done' parts' ∧
      (if jumps then jump done' parts' else walkWith root follow jump done' parts') = .ok place := by
  rw [walkWith] at h
  split at h
  · cases h
  · next items hdone =>
      have hfolder : root.see? done = some .empty := Node.see?_eq_empty.mpr ⟨items, hdone⟩
      split at h
      · next hidle => exact ⟨_, _, _, .stay hfolder hidle, h⟩
      · next hidle =>
          have hidle : Path.isIdle part = false := Bool.eq_false_iff.mpr hidle
          split at h
          · next hup => exact ⟨_, _, _, .up hfolder hup, h⟩
          · next hup =>
              split at h
              · cases h
              · next hlong =>
                  have hlong : isLong part = false := Bool.eq_false_iff.mpr hlong
                  split at h
                  · next target htarget =>
                      have hlink := Node.see?_eq_link.mpr htarget
                      split at h
                      · next hlast =>
                          have hlast : rest = [] ∧ follow = false := by simpa using hlast
                          refine ⟨_, _, _, .down hfolder hidle hup hlong (.inr hlast), ?_⟩
                          rw [hlast.1]
                          exact h
                      · next hgo =>
                          have hgo : rest ≠ [] ∨ follow = true := by
                            cases rest <;> simp_all
                          exact ⟨_, _, _, .jump hfolder hidle hup hlong hlink hgo, h⟩
                  · next hnot =>
                      refine ⟨_, _, _, .down hfolder hidle hup hlong (.inl fun target ht => ?_), h⟩
                      exact hnot target (Node.see?_eq_link.mp ht)
  · cases h

theorem Stride.walkWith_eq (h : Stride root follow done part rest jumps done' parts') :
    walkWith root follow jump done (part :: rest) =
      if jumps then jump done' parts' else walkWith root follow jump done' parts' := by
  cases h with
  | stay hfolder hidle =>
      obtain ⟨items, hdone⟩ := Node.see?_eq_empty.mp hfolder
      rw [walkWith, hdone]
      simp only [hidle, if_true, if_false, Bool.false_eq_true]
  | up hfolder hup =>
      obtain ⟨items, hdone⟩ := Node.see?_eq_empty.mp hfolder
      obtain rfl := hup
      rw [walkWith, hdone]
      rfl
  | down hfolder hidle hup hlong hlink =>
      obtain ⟨items, hdone⟩ := Node.see?_eq_empty.mp hfolder
      rw [walkWith, hdone]
      simp only [hidle, hup, hlong, if_false, Bool.false_eq_true]
      split
      · next target htarget =>
          rcases hlink with hlink | ⟨rfl, rfl⟩
          · exact absurd (Node.see?_eq_link.mpr htarget) (hlink target)
          · rfl
      · rfl
  | jump hfolder hidle hup hlong hlink hgo =>
      obtain ⟨items, hdone⟩ := Node.see?_eq_empty.mp hfolder
      rw [walkWith, hdone]
      simp only [hidle, hup, hlong, if_false, Bool.false_eq_true, Node.see?_eq_link.mp hlink,
        if_true]
      rw [if_neg]
      cases rest <;> simp_all

theorem Stride.grows (h : Stride root follow done part rest jumps done' parts')
    (hgrows : root.Grows root') : Stride root' follow done part rest jumps done' parts' := by
  cases h with
  | stay hfolder hidle => exact .stay (hgrows.folder hfolder) hidle
  | up hfolder hup => exact .up (hgrows.folder hfolder) hup
  | down hfolder hidle hup hlong hlink =>
      refine .down (hgrows.folder hfolder) hidle hup hlong (hlink.imp_left fun hnot target ht => ?_)
      exact hnot target ((hgrows.link_iff _ target).mp ht)
  | jump hfolder hidle hup hlong hlink hgo =>
      exact .jump (hgrows.folder hfolder) hidle hup hlong ((hgrows.link_iff _ _).mpr hlink) hgo

/-- A path is gone along, with so many links at most that are left for another path. -/
inductive Goes (root : Node) (follow : Bool) :
    Nat → List String → List String → List String → Prop
  | arrive {links : Nat} {done : List String} : Goes root follow links done [] done
  | step {links : Nat} {done done' rest parts' place : List String} {part : String}
      (hstride : Stride root follow done part rest false done' parts')
      (h : Goes root follow links done' parts' place) :
      Goes root follow links done (part :: rest) place
  | jump {links : Nat} {done done' rest parts' place : List String} {part : String}
      (hstride : Stride root follow done part rest true done' parts')
      (h : Goes root follow links done' parts' place) :
      Goes root follow (links + 1) done (part :: rest) place

theorem Stride.rest_eq (h : Stride root follow done part rest false done' parts') :
    parts' = rest := by
  cases h <;> rfl

theorem walk_cons (h : Stride root follow done part rest false done' parts') :
    walk root follow links done (part :: rest) = walk root follow links done' parts' := by
  cases links <;> exact h.walkWith_eq

theorem goes_of_walk (h : walk root follow links done parts = .ok place) :
    Goes root follow links done parts place := by
  induction links generalizing done parts with
  | zero =>
      induction parts generalizing done with
      | nil => exact Except.ok.inj h ▸ .arrive
      | cons part rest ih =>
          obtain ⟨jumps, done', parts', hstride, hrest⟩ := exists_stride h
          cases jumps with
          | true => cases hrest
          | false =>
              obtain rfl := hstride.rest_eq
              exact .step hstride (ih hrest)
  | succ links ihlinks =>
      induction parts generalizing done with
      | nil => exact Except.ok.inj h ▸ .arrive
      | cons part rest ih =>
          obtain ⟨jumps, done', parts', hstride, hrest⟩ := exists_stride h
          cases jumps with
          | true => exact .jump hstride (ihlinks hrest)
          | false =>
              obtain rfl := hstride.rest_eq
              exact .step hstride (ih hrest)

theorem walk_iff_goes :
    walk root follow links done parts = .ok place ↔ Goes root follow links done parts place := by
  refine ⟨goes_of_walk, fun h => ?_⟩
  induction h with
  | @arrive links done => cases links <;> rfl
  | step hstride _ ih => rw [walk_cons hstride, ih]
  | jump hstride _ ih => exact hstride.walkWith_eq.trans ih

theorem Goes.grows (h : Goes root follow links done parts place) (hgrows : root.Grows root') :
    Goes root' follow links done parts place := by
  induction h with
  | arrive => exact .arrive
  | step hstride _ ih => exact .step (hstride.grows hgrows) ih
  | jump hstride _ ih => exact .jump (hstride.grows hgrows) ih

/-- Where there is something, or where a folder may be given another item. -/
def Open (root : Node) (place : List String) : Prop :=
  (root.get? place).isSome ∨
    ∃ above name, place = above ++ [name] ∧ root.see? above = some .empty

theorem Stride.opens (h : Stride root follow done part rest jumps done' parts') :
    Open root done' := by
  have hthere : ∀ p, root.see? p = some .empty → (root.get? p).isSome := by
    intro p hp
    obtain ⟨items, hitems⟩ := Node.see?_eq_empty.mp hp
    rw [hitems]
    rfl
  cases h with
  | stay hfolder _ => exact .inl (hthere _ hfolder)
  | up hfolder _ =>
      rcases List.eq_nil_or_concat done with rfl | ⟨above, name, rfl⟩
      · exact .inl (hthere [] hfolder)
      · rw [List.concat_eq_append] at hfolder ⊢
        have h := hthere _ hfolder
        rw [Node.get?_append] at h
        rw [List.dropLast_concat]
        cases habove : root.get? above with
        | none => simp [habove] at h
        | some n => exact .inl (by rw [habove]; rfl)
  | down hfolder _ _ _ _ => exact .inr ⟨done, part, rfl, hfolder⟩
  | @jump target hfolder _ _ _ _ _ =>
      split
      · exact .inl rfl
      · exact .inl (hthere _ hfolder)

theorem Goes.opens (h : Goes root follow links done parts place) (hdone : Open root done) :
    Open root place := by
  induction h with
  | arrive => exact hdone
  | step hstride _ ih => exact ih hstride.opens
  | jump hstride _ ih => exact ih hstride.opens

theorem Open.above {above : List String} (h : Open root (above ++ [name])) :
    root.see? above = some .empty := by
  rcases h with hthere | ⟨other, last, hplace, hfolder⟩
  · obtain ⟨n, hn⟩ := Option.isSome_iff_exists.mp hthere
    exact Node.see?_eq_empty.mpr (Node.isFolder_above hn)
  · obtain ⟨rfl, -⟩ := List.append_inj' hplace rfl
    exact hfolder

theorem Open.get?_put (h : Open root place) (n : Node) : (root.put place n).get? place = some n := by
  rcases h with hthere | ⟨above, name, rfl, habove⟩
  · have hput := Node.get?_put hthere [] n
    rwa [List.append_nil] at hput
  · obtain ⟨items, hitems⟩ := Node.see?_eq_empty.mp habove
    have hinto : root.put (above ++ [name]) n =
        root.put above (.folder (Node.putItem name n items)) := by
      have hput := Node.put_put (n := root) (p := above) (by rw [hitems]; rfl) [name]
        (.folder items) n
      rwa [Node.put_of_get? hitems] at hput
    rw [hinto, Node.get?_put (by rw [hitems]; rfl), Node.get?, Node.items, Node.lookup_putItem,
      if_pos rfl]
    rfl

/-- A file that is put where there is no folder is the only change of files and links. -/
theorem Open.leaf?_put (h : Open root place) (hfolder : root.see? place ≠ some .empty)
    (content : Text.Bytes) (runs : Bool) (q : List String) :
    (root.put place (.file content runs)).leaf? q =
      if q = place then some (.file content runs) else root.leaf? q := by
  by_cases hq : place <+: q
  · obtain ⟨x, rfl⟩ := hq
    cases x with
    | nil =>
        rw [List.append_nil, if_pos rfl, Node.leaf?, Node.see?, h.get?_put]
        rfl
    | cons name x =>
        have hbefore : root.see? (place ++ name :: x) = none := by
          rw [Node.see?_append]
          cases hthere : root.get? place with
          | none => rfl
          | some n =>
              cases n with
              | folder items => exact absurd (Node.see?_eq_empty.mpr ⟨items, hthere⟩) hfolder
              | file | link => rfl
        have hafter : (root.put place (.file content runs)).see? (place ++ name :: x) = none := by
          rw [Node.see?_append, h.get?_put]
          rfl
        have hne : place ++ name :: x ≠ place := by simp
        rw [if_neg hne, Node.leaf?, Node.leaf?, hbefore, hafter]
  · have hne : q ≠ place := by
      rintro rfl
      exact hq List.prefix_rfl
    rw [if_neg hne, Node.leaf?, Node.see?_put hq]
    rfl

theorem Stride.front (h : Stride root follow done part (rest ++ [name]) jumps done' parts') :
    ∃ parts'', parts' = parts'' ++ [name] ∧ Stride root true done part rest jumps done' parts'' := by
  cases h with
  | stay hfolder hidle => exact ⟨_, rfl, .stay hfolder hidle⟩
  | up hfolder hup => exact ⟨_, rfl, .up hfolder hup⟩
  | down hfolder hidle hup hlong hlink =>
      refine ⟨_, rfl, .down hfolder hidle hup hlong (.inl ?_)⟩
      exact hlink.resolve_right fun hlast => by simp at hlast
  | jump hfolder hidle hup hlong hlink _ =>
      exact ⟨_, (List.append_assoc _ _ _).symm, .jump hfolder hidle hup hlong hlink (.inr rfl)⟩

theorem Stride.behind (h : Stride root true done part rest jumps done' parts')
    (follow : Bool) (name : String) :
    Stride root follow done part (rest ++ [name]) jumps done' (parts' ++ [name]) := by
  cases h with
  | stay hfolder hidle => exact .stay hfolder hidle
  | up hfolder hup => exact .up hfolder hup
  | down hfolder hidle hup hlong hlink =>
      exact .down hfolder hidle hup hlong (.inl (hlink.resolve_right fun hlast => by simp at hlast))
  | jump hfolder hidle hup hlong hlink _ =>
      rw [List.append_assoc]
      exact .jump hfolder hidle hup hlong hlink (.inl (by simp))

theorem Goes.front (h : Goes root follow links done (parts ++ [name]) place) :
    ∃ above, Goes root true links done parts above ∧ root.see? above = some .empty ∧
      (Path.isIdle name = false → name ≠ ".." → isLong name = false) := by
  generalize hall : parts ++ [name] = all at h
  induction h generalizing parts with
  | arrive => simp at hall
  | @step links done done' rest parts' place part hstride _ ih =>
      cases parts with
      | nil =>
          obtain ⟨rfl, rfl⟩ := List.cons.inj hall
          refine ⟨done, .arrive, ?_⟩
          cases hstride with
          | stay hfolder hidle => exact ⟨hfolder, fun h => by simp [h] at hidle⟩
          | up hfolder hup => exact ⟨hfolder, fun _ h => absurd hup h⟩
          | down hfolder _ _ hlong _ => exact ⟨hfolder, fun _ _ => hlong⟩
      | cons first parts =>
          obtain ⟨rfl, rfl⟩ := List.cons.inj hall
          obtain ⟨parts'', rfl, hfront⟩ := hstride.front
          obtain ⟨above, hgoes, habove⟩ := ih rfl
          exact ⟨above, .step hfront hgoes, habove⟩
  | @jump links done done' rest parts' place part hstride _ ih =>
      cases parts with
      | nil =>
          obtain ⟨rfl, rfl⟩ := List.cons.inj hall
          refine ⟨done, .arrive, ?_⟩
          cases hstride with
          | jump hfolder _ _ hlong _ _ => exact ⟨hfolder, fun _ _ => hlong⟩
      | cons first parts =>
          obtain ⟨rfl, rfl⟩ := List.cons.inj hall
          obtain ⟨parts'', rfl, hfront⟩ := hstride.front
          obtain ⟨above, hgoes, habove⟩ := ih rfl
          exact ⟨above, .jump hfront hgoes, habove⟩

theorem Goes.append {next : List String} (h : Goes root true links done parts place)
    (hlast : Stride root follow place name [] false next []) :
    Goes root follow links done (parts ++ [name]) next := by
  induction h with
  | arrive => exact .step hlast .arrive
  | step hstride _ ih => exact .step (hstride.behind follow name) (ih hlast)
  | jump hstride _ ih => exact .jump (hstride.behind follow name) (ih hlast)

variable {d d' : Disk} {path : String}

theorem resolveBy_ok_iff : resolveBy follow d path = .ok place ↔
    path ≠ "" ∧ hasNul path = false ∧ path.utf8ByteSize ≤ longestPath ∧
      Goes d.root follow mostLinks (d.start path) (Path.parts path) place := by
  rw [resolveBy, ← walk_iff_goes]
  by_cases hempty : path = ""
  · simp [hempty]
  · by_cases hnul : hasNul path = true
    · simp [hempty, hnul]
    · by_cases hlong : longestPath < path.utf8ByteSize
      · simp [hempty, hnul, hlong, Nat.not_le.mpr hlong]
      · simp [hempty, hnul, hlong, Nat.not_lt.mp hlong]

theorem open_of_resolveBy (h : resolveBy follow d path = .ok place) : Open d.root place := by
  obtain ⟨-, -, -, hgoes⟩ := resolveBy_ok_iff.mp h
  have hparts : Path.parts path ≠ [] := by
    rw [Path.parts, Ne, List.map_eq_nil_iff]
    exact Text.splitAt_ne_nil _ _
  obtain ⟨part, rest, hrest⟩ := List.exists_cons_of_ne_nil hparts
  rw [hrest] at hgoes
  cases hgoes with
  | step hstride h => exact h.opens hstride.opens
  | jump hstride h => exact h.opens hstride.opens

theorem read_toOption (h : d.resolve path = .ok place) :
    (d.read path).toOption = (d.root.leaf? place).bind Node.content? := by
  rw [read, node, h, Node.leaf?, Node.see?]
  simp only [bind, Except.bind, nodeAt]
  cases d.root.get? place with
  | none => rfl
  | some n => cases n <;> rfl

/-- All that one disk has and another one has not are folders. -/
structure Widens (d d' : Disk) : Prop where
  here : d'.here = d.here
  grows : d.root.Grows d'.root
  leaf : ∀ q, d'.root.leaf? q = d.root.leaf? q

theorem Widens.refl (d : Disk) : Widens d d := ⟨rfl, .refl _, fun _ => rfl⟩

theorem Widens.trans {d'' : Disk} (h : Widens d d') (h' : Widens d' d'') : Widens d d'' :=
  ⟨h'.here.trans h.here, h.grows.trans h'.grows, fun q => (h'.leaf q).trans (h.leaf q)⟩

theorem resolveBy_grows (hhere : d'.here = d.here) (hgrows : d.root.Grows d'.root)
    (h : resolveBy follow d path = .ok place) : resolveBy follow d' path = .ok place := by
  obtain ⟨hempty, hnul, hlong, hgoes⟩ := resolveBy_ok_iff.mp h
  have hstart : d'.start path = d.start path := by rw [start, start, hhere]
  exact resolveBy_ok_iff.mpr ⟨hempty, hnul, hlong, hstart ▸ hgoes.grows hgrows⟩

theorem makeFolder_ok (h : d.makeFolder path = .ok d') : ∃ place,
    d.place (Path.bare path) = .ok place ∧ d.root.get? place = none ∧
      d' = d.withRoot (d.root.put place .empty) := by
  obtain ⟨place, hplace, h⟩ := bind_ok h
  obtain ⟨hthere, h⟩ := check_ok h
  exact ⟨place, hplace, by simpa using hthere, (Except.ok.inj h).symm⟩

theorem widens_put {place : List String} (h : d.root.get? place = none) :
    Widens d (d.withRoot (d.root.put place .empty)) :=
  ⟨rfl, Node.grows_put (Node.clear_of_get?_none h) rfl rfl, Node.leaf?_put_empty h⟩

theorem widens_makeFolder (h : d.makeFolder path = .ok d') : Widens d d' := by
  obtain ⟨place, -, hnone, rfl⟩ := makeFolder_ok h
  exact widens_put hnone

theorem widens_haveFolder (h : d.haveFolder path = .ok d') : Widens d d' := by
  unfold haveFolder at h
  split at h
  · split at h
    · exact Except.ok.inj h ▸ .refl d
    · cases h
  · exact widens_makeFolder h

theorem widens_makeChain (paths : List String) (d : Disk) : Widens d (d.makeChain paths).1 := by
  induction paths with
  | nil => exact .refl d
  | cons path above ih =>
      rw [makeChain]
      split
      · next made hmade => exact widens_haveFolder hmade
      · split
        · next habove => rw [habove] at ih; exact ih
        · next habove =>
            rw [habove] at ih
            split
            · next made hmade => exact ih.trans (widens_haveFolder hmade)
            · exact ih
      · exact .refl d

theorem widens_makeFolders (path : String) (d : Disk) :
    Widens d (d.applied (.makeFolders path)) :=
  widens_makeChain _ d

theorem applied_of_apply {e : Edit} (h : d.apply e = .ok d') : d.applied e = d' := by
  cases e with
  | makeFolders path =>
      rw [apply] at h
      rw [applied]
      split at h
      · next made hmade => rw [hmade]; exact Except.ok.inj h
      · cases h
  | makeFolder | makeLink | write | permit | remove | rename =>
      exact congrArg (fun o : Except OsError Disk => o.toOption.getD d) h

theorem remove_ok (h : d.remove path = .ok d') : ∃ place, d.place path = .ok place ∧
    d' = d.withRoot (d.root.erase place) := by
  obtain ⟨place, hplace, h⟩ := bind_ok h
  obtain ⟨-, h⟩ := check_ok h
  exact ⟨place, hplace, (Except.ok.inj h).symm⟩

theorem rename_ok {source target : String} {old : List String} {content : Text.Bytes} {runs : Bool}
    (hsource : d.place source = .ok old) (hfile : d.root.get? old = some (.file content runs))
    (h : d.rename source target = .ok d') : ∃ new, d.place (Path.bare target) = .ok new ∧
      d.root.see? new ≠ some .empty ∧
        d' = d.withRoot ((d.root.erase old).put new (.file content runs)) := by
  rw [rename] at h
  obtain ⟨-, h⟩ := check_ok h
  obtain ⟨old', hold, h⟩ := bind_ok h
  obtain ⟨new, hnew, h⟩ := bind_ok h
  obtain ⟨-, h⟩ := check_ok h
  obtain ⟨n, hn, h⟩ := bind_ok h
  obtain rfl : old = old' := Except.ok.inj (hsource.symm.trans hold)
  obtain rfl : n = .file content runs := by
    rw [nodeAt, hfile] at hn
    exact (Except.ok.inj hn).symm
  obtain ⟨-, h⟩ := check_ok h
  obtain ⟨-, h⟩ := check_ok h
  obtain ⟨hthere, h⟩ := check_ok h
  obtain ⟨-, h⟩ := check_ok h
  obtain ⟨-, h⟩ := check_ok h
  refine ⟨new, hnew, fun hfolder => ?_, (Except.ok.inj h).symm⟩
  obtain ⟨items, hitems⟩ := Node.see?_eq_empty.mp hfolder
  exact hthere ⟨rfl, by rw [hitems]; rfl⟩

end FunctionJar.Disk
