import FunctionJar.Proofs.Archive.Room

namespace FunctionJar.Archive

open Text (Bytes)

variable {refusals : Refusals} {n : Nat} {d d' x : Disk} {as : List Action} {a : Action}
  {P : Disk → Prop} {p : Passage} {next : Disk → Passage} {fault : WriteFault}

structure Passage.All (P : Disk → Prop) (p : Passage) : Prop where
  way : ∀ x ∈ p.disks, P x
  last : P p.last

theorem Passage.andThen_eq (h : p.refused = none) :
    p.andThen next = p.followedBy (next p.last) := by
  rw [andThen, h]

theorem Passage.andThen_of_refused (h : p.refused = some fault) : p.andThen next = p := by
  rw [andThen, h]

theorem pass_cons_ok (hrefusal : refusals n = none) (h : a.perform d = .ok d') (as : List Action) :
    pass refusals n d (a :: as) =
      (Passage.move d' none).followedBy (pass refusals (n + 1) d' as) := by
  rw [pass, hrefusal, h]

theorem pass_cons_cases (refusals : Refusals) (n : Nat) (d : Disk) (a : Action) (as : List Action) :
    (∃ fault, pass refusals n d (a :: as) = .stay d (some fault)) ∨
      (∃ fault, a.perform d = .error fault ∧
        pass refusals n d (a :: as) = .move (a.left d) (some fault)) ∨
      ∃ d', a.perform d = .ok d' ∧ pass refusals n d (a :: as) =
        (Passage.move d' none).followedBy (pass refusals (n + 1) d' as) := by
  cases hrefusal : refusals n with
  | some e => exact .inl ⟨.os e, by rw [pass, hrefusal]⟩
  | none =>
      cases h : a.perform d with
      | error fault => exact .inr (.inl ⟨fault, rfl, by rw [pass, hrefusal, h]⟩)
      | ok d' => exact .inr (.inr ⟨d', rfl, pass_cons_ok hrefusal h as⟩)

theorem pass_cons_done (h : (pass refusals n d (a :: as)).refused = none) :
    ∃ d', a.perform d = .ok d' ∧ (pass refusals (n + 1) d' as).refused = none ∧
      pass refusals n d (a :: as) =
        (Passage.move d' none).followedBy (pass refusals (n + 1) d' as) := by
  rcases pass_cons_cases refusals n d a as with ⟨fault, hstop⟩ | ⟨fault, -, hstop⟩ | ⟨d', hd', hgo⟩
  · rw [hstop] at h
    cases h
  · rw [hstop] at h
    cases h
  · rw [hgo] at h
    exact ⟨d', hd', h, hgo⟩

theorem Passage.andThen_done (h : (p.andThen next).refused = none) :
    p.refused = none ∧ (next p.last).refused = none ∧
      p.andThen next = p.followedBy (next p.last) := by
  cases hstop : p.refused with
  | some fault => rw [andThen_of_refused hstop, hstop] at h; cases h
  | none =>
      rw [andThen_eq hstop] at h
      exact ⟨rfl, h, andThen_eq hstop⟩

theorem pass_append (refusals : Refusals) (n : Nat) (d : Disk) (as bs : List Action) :
    pass refusals n d (as ++ bs) =
      (pass refusals n d as).andThen fun d => pass refusals (n + as.length) d bs := by
  induction as generalizing n d with
  | nil => rfl
  | cons a as ih =>
      rw [List.cons_append]
      cases hrefusal : refusals n with
      | some e => rw [pass, pass, hrefusal]; rfl
      | none =>
          cases h : a.perform d with
          | error fault => rw [pass, pass, hrefusal, h]; rfl
          | ok next =>
              rw [pass_cons_ok hrefusal h, pass_cons_ok hrefusal h, ih, List.length_cons,
                Nat.add_comm as.length 1, ← Nat.add_assoc]
              cases hstop : (pass refusals (n + 1) next as).refused <;>
                simp [Passage.andThen, Passage.followedBy, Passage.move, hstop]

theorem pass_all (hd : P d) (hkeep : ∀ a ∈ as, ∀ d, P d →
    P (a.left d) ∧ ∀ d', a.perform d = .ok d' → P d') : (pass refusals n d as).All P := by
  induction as generalizing n d with
  | nil => exact ⟨nofun, hd⟩
  | cons a as ih =>
      obtain ⟨hleft, hnext⟩ := hkeep a List.mem_cons_self d hd
      rcases pass_cons_cases refusals n d a as with ⟨fault, h⟩ | ⟨fault, -, h⟩ | ⟨d', hd', h⟩
      · exact h ▸ ⟨nofun, hd⟩
      · refine h ▸ ⟨fun x hx => ?_, hleft⟩
        exact List.mem_singleton.mp hx ▸ hleft
      · have hrest := ih (n := n + 1) (hnext d' hd') fun a ha =>
          hkeep a (List.mem_cons_of_mem _ ha)
        refine h ▸ ⟨fun x hx => ?_, hrest.last⟩
        rcases List.mem_cons.mp hx with rfl | hx
        · exact hnext _ hd'
        · exact hrest.way x hx

theorem widens_pass (refusals : Refusals) (n : Nat) (d : Disk) (folder : String) :
    (pass refusals n d [.edit (.makeFolders folder)]).All d.Widens := by
  refine pass_all (.refl d) fun a ha d' hd' => ?_
  obtain rfl := List.mem_singleton.mp ha
  have hwide := hd'.trans (Disk.widens_makeFolders folder d')
  refine ⟨hwide, fun next hnext => ?_⟩
  rwa [← Disk.applied_of_apply (ok_of_mapError hnext)]

variable {temp target : String} {above : List String} {items : List (String × Node)} {name : String}
  {pieces : List Bytes} {room : Bool}

theorem perform_write (h : Room d temp above items name) (old new : Bytes) :
    (Action.edit (.write temp new)).perform (taken d above items name old) =
      .ok (taken d above items name new) := by
  rw [Action.perform, Disk.apply, h.write old new]
  rfl

def writes (temp : String) (pieces : List Bytes) (k : Nat) : List Action :=
  (List.range k).map fun n => .edit (.write temp (pieces.take (n + 1)).flatten)

/-- A disk on which the room is taken, by whatever file. -/
def Taken (d : Disk) (above : List String) (items : List (String × Node)) (name : String)
    (x : Disk) : Prop :=
  ∃ content, x = taken d above items name content

theorem writes_succ (temp : String) (pieces : List Bytes) (k : Nat) : writes temp pieces (k + 1) =
    writes temp pieces k ++ [.edit (.write temp (pieces.take (k + 1)).flatten)] := by
  rw [writes, List.range_succ, List.map_append]
  rfl

theorem pass_writes (h : Room d temp above items name) {k : Nat}
    (hdone : (pass refusals n (taken d above items name []) (writes temp pieces k)).refused = none) :
    (pass refusals n (taken d above items name []) (writes temp pieces k)).last =
      taken d above items name (pieces.take k).flatten := by
  induction k with
  | zero => rfl
  | succ k ih =>
      rw [writes_succ, pass_append] at hdone ⊢
      obtain ⟨hfront, hlast, he⟩ := Passage.andThen_done hdone
      rw [he, ih hfront] at *
      obtain ⟨d', hd', -, hgo⟩ := pass_cons_done hlast
      have hwrite := perform_write h (pieces.take k).flatten (pieces.take (k + 1)).flatten
      obtain rfl := Except.ok.inj (hwrite.symm.trans hd')
      rw [hgo]
      rfl

theorem pass_still (hleft : ∀ a ∈ as, a.left d = d)
    (hperform : ∀ a ∈ as, ∀ d', a.perform d = .ok d' → d' = d) :
    (pass refusals n d as).All (· = d) := by
  refine pass_all rfl ?_
  rintro a ha d rfl
  exact ⟨hleft a ha, hperform a ha⟩

theorem pass_last_mem (hne : as ≠ []) (hdone : (pass refusals n d as).refused = none) :
    (pass refusals n d as).last ∈ (pass refusals n d as).disks := by
  induction as generalizing n d with
  | nil => exact absurd rfl hne
  | cons a as ih =>
      obtain ⟨d', -, hrest, hgo⟩ := pass_cons_done hdone
      rw [hgo]
      cases as with
      | nil => exact List.mem_cons_self
      | cons b bs => exact List.mem_cons_of_mem _ (ih (List.cons_ne_nil _ _) hrest)

def preparation (temp : String) (pieces : List Bytes) (room : Bool) : List Action :=
  writes temp pieces pieces.length ++
    ((if room then [] else [.overflow]) ++ [.sync, .readBack temp])

theorem fill_eq (temp target : String) (pieces : List Bytes) (room : Bool) :
    fill temp target pieces room =
      preparation temp pieces room ++ [.edit (.rename temp target)] := by
  simp [fill, preparation, writes]

theorem still_actions {x : Disk}
    (ha : a ∈ (if room then [] else [Action.overflow]) ++ [.sync, .readBack temp]) :
    a.left x = x ∧ ∀ d', a.perform x = .ok d' → d' = x := by
  have hcases : a = .overflow ∨ a = .sync ∨ a = .readBack temp := by
    cases room <;> simp_all
  rcases hcases with rfl | rfl | rfl
  · exact ⟨rfl, nofun⟩
  · exact ⟨rfl, fun d' hd' => (Except.ok.inj hd').symm⟩
  · refine ⟨rfl, fun d' hd' => ?_⟩
    have hread := ok_of_mapError hd'
    cases hcontent : x.read temp with
    | error e => rw [hcontent] at hread; cases hread
    | ok content => rw [hcontent] at hread; exact (Except.ok.inj hread).symm

theorem all_preparation (h : Room d temp above items name) (refusals : Refusals) (n : Nat)
    (pieces : List Bytes) (room : Bool) :
    (pass refusals n (taken d above items name []) (preparation temp pieces room)).All
      (Taken d above items name) := by
  refine pass_all ⟨[], rfl⟩ ?_
  rintro a ha x ⟨content, rfl⟩
  rcases List.mem_append.mp ha with ha | ha
  · obtain ⟨k, -, rfl⟩ := List.mem_map.mp ha
    have hwrite := perform_write h content (pieces.take (k + 1)).flatten
    refine ⟨⟨(pieces.take (k + 1)).flatten, ?_⟩, fun d' hd' => ?_⟩
    · exact Disk.applied_of_apply (e := .write temp _) (h.write content _)
    · exact ⟨_, Except.ok.inj (hd'.symm.trans hwrite)⟩
  · obtain ⟨hleft, hperform⟩ := still_actions (x := taken d above items name content) ha
    exact ⟨⟨content, hleft⟩, fun d' hd' => ⟨content, hperform d' hd'⟩⟩

/-- A file that waits for its name has all of its content. -/
structure Prepared (d : Disk) (above : List String) (items : List (String × Node)) (name : String)
    (bytes : Bytes) (room : Bool) (p : Passage) : Prop where
  room : room = true
  last : p.last = taken d above items name bytes
  mem : p.last ∈ p.disks

theorem prepared_of_done (h : Room d temp above items name)
    (hdone : (pass refusals n (taken d above items name [])
      (preparation temp pieces room)).refused = none) :
    Prepared d above items name pieces.flatten room
      (pass refusals n (taken d above items name []) (preparation temp pieces room)) := by
  have hmem := pass_last_mem (by simp [preparation]) hdone
  rw [preparation, pass_append] at hdone
  obtain ⟨hwrites, hstill, he⟩ := Passage.andThen_done hdone
  have hlast := pass_writes h hwrites
  rw [List.take_length] at hlast
  rw [hlast] at hstill
  refine ⟨?_, ?_, hmem⟩
  · cases room with
    | true => rfl
    | false =>
        obtain ⟨d', hd', -⟩ := pass_cons_done hstill
        cases hd'
  · rw [preparation, pass_append, he, hlast]
    exact (pass_still (fun a ha => (still_actions ha).1) fun a ha => (still_actions ha).2).last

/-- A disk on the way to a new file: with more folders than there were, and maybe with the file
under the name that it has for a time. -/
inductive Stage (d : Disk) : Disk → Prop
  | wide {x : Disk} (h : d.Widens x) : Stage d x
  | filling {made : Disk} {temp : String} {above : List String} {items : List (String × Node)}
      {n : Nat} {content : Bytes} (hwide : d.Widens made)
      (hroom : Room made temp above items (tempName n)) :
      Stage d (taken made above items (tempName n) content)

theorem Stage.leaf? (h : Stage d x) {q : List String} (hq : ¬ Temporary q) :
    x.root.leaf? q = d.root.leaf? q := by
  cases h with
  | wide h => exact h.leaf q
  | @filling made temp above items n content hwide hroom =>
      rw [hroom.leaf?_taken, if_neg fun he => hq ⟨above, n, he⟩]
      exact hwide.leaf q

/-- The disks lead to one with these bytes at the place that the target leads to. -/
structure Written (d : Disk) (target : String) (bytes : Bytes) (p : Passage) (place : List String) :
    Prop where
  leads : ∃ x ∈ p.disks, x.place (Path.bare target) = .ok place
  way : ∀ x ∈ p.disks, Stage d x ∨ x = p.last
  leaf : ∀ q, p.last.root.leaf? q = if q = place then some (.file bytes false) else d.root.leaf? q

structure Undone (d : Disk) (p : Passage) : Prop where
  way : ∀ x ∈ p.disks, Stage d x
  last : d.Widens p.last

theorem Stage.of_taken {made : Disk} {n : Nat} (hwide : d.Widens made)
    (hroom : Room made temp above items (tempName n))
    (h : Taken made above items (tempName n) x) : Stage d x := by
  obtain ⟨content, rfl⟩ := h
  exact .filling hwide hroom

/-- What the whole comes to: nothing but folders, or a file with all of its content. -/
def Settles (d : Disk) (target : String) (bytes : Bytes) (room : Bool) (p : Passage) : Prop :=
  (p.refused ≠ none ∧ Undone d p) ∨
    (p.refused = none ∧ room = true ∧ ∃ place, Written d target bytes p place)

theorem settles_orRemove {made : Disk} {n : Nat} {bytes : Bytes} (hwide : d.Widens made)
    (hroom : Room made temp above items (tempName n))
    (hall : p.All (Taken made above items (tempName n))) (hstop : p.refused = some fault) :
    Settles d target bytes room (p.orRemove temp) := by
  obtain ⟨content, hlast⟩ := hall.last
  have hremove : p.last.applied (.remove temp) = made := by
    rw [hlast]
    exact Disk.applied_of_apply (e := .remove temp) (hroom.remove content)
  have hremoved : p.orRemove temp = p.followedBy (.move made (some fault)) := by
    rw [Passage.orRemove, hstop, ← hremove]
  rw [hremoved]
  refine .inl ⟨nofun, fun x hx => ?_, hwide⟩
  rcases List.mem_append.mp hx with hx | hx
  · exact .of_taken hwide hroom (hall.way x hx)
  · exact List.mem_singleton.mp hx ▸ .wide hwide

theorem Action.left_of_error {e : Edit} (he : d.applied e = (d.apply e).toOption.getD d)
    (h : (Action.edit e).perform d = .error fault) : (Action.edit e).left d = d := by
  rw [Action.left, he]
  cases hd' : d.apply e with
  | error _ => rfl
  | ok d' =>
      rw [Action.perform, hd'] at h
      cases h

theorem settles_rename {made : Disk} {n : Nat} {bytes : Bytes} (hwide : d.Widens made)
    (hroom : Room made temp above items (tempName n))
    (hall : p.All (Taken made above items (tempName n)))
    (hprepared : Prepared made above items (tempName n) bytes room p) (refusals : Refusals) (k : Nat) :
    Settles d target bytes room
      ((p.followedBy (pass refusals k p.last [.edit (.rename temp target)])).orRemove temp) := by
  have hlast := hprepared.last
  rcases pass_cons_cases refusals k p.last (.edit (.rename temp target)) []
    with ⟨fault, he⟩ | ⟨fault, hd', he⟩ | ⟨d', hd', he⟩
  · rw [he]
    refine settles_orRemove hwide hroom ⟨fun x hx => hall.way x ?_, hall.last⟩ rfl
    simpa [Passage.followedBy, Passage.stay] using hx
  · rw [he, Action.left_of_error rfl hd']
    refine settles_orRemove hwide hroom ⟨fun x hx => ?_, hall.last⟩ rfl
    rcases List.mem_append.mp hx with hx | hx
    · exact hall.way x hx
    · exact List.mem_singleton.mp hx ▸ hall.last
  · have hrename := ok_of_mapError hd'
    rw [hlast] at hrename
    obtain ⟨place, hplace, hopen, hfolder, rfl⟩ := hroom.rename hrename
    rw [he]
    refine .inr ⟨rfl, hprepared.room, place, ⟨p.last, ?_, by rw [hlast]; exact hplace⟩, ?_, ?_⟩
    · exact List.mem_append_left _ hprepared.mem
    · intro x hx
      rcases List.mem_append.mp hx with hx | hx
      · exact .inl (.of_taken hwide hroom (hall.way x hx))
      · exact .inr (List.mem_singleton.mp hx)
    · intro q
      have hput := hopen.leaf?_put hfolder bytes false q
      rw [hwide.leaf q] at hput
      exact hput

theorem settles_fill {made : Disk} {n : Nat} (hwide : d.Widens made)
    (hroom : Room made temp above items (tempName n)) (refusals : Refusals) (k : Nat) :
    Settles d target pieces.flatten room
      ((pass refusals k (taken made above items (tempName n) [])
        (fill temp target pieces room)).orRemove temp) := by
  have hall := all_preparation hroom refusals k pieces room
  have hdone : _ → Prepared made above items (tempName n) pieces.flatten room
    (pass refusals k (taken made above items (tempName n) []) (preparation temp pieces room)) :=
    prepared_of_done hroom
  rw [fill_eq, pass_append]
  generalize pass refusals k (taken made above items (tempName n) [])
    (preparation temp pieces room) = front at hall hdone
  cases hstop : front.refused with
  | some fault =>
      rw [Passage.andThen_of_refused hstop]
      exact settles_orRemove hwide hroom hall hstop
  | none =>
      rw [Passage.andThen_eq hstop]
      exact settles_rename hwide hroom hall (hdone hstop) refusals _

theorem Settles.behind {bytes : Bytes} {q : Passage} (hway : ∀ x ∈ p.disks, Stage d x)
    (h : Settles d target bytes room q) : Settles d target bytes room (p.followedBy q) := by
  rcases h with ⟨hstop, hrest, hlast⟩ | ⟨hdone, hroom, place, ⟨x, hx, hplace⟩, hrest, hleaf⟩
  · refine .inl ⟨hstop, fun x hx => ?_, hlast⟩
    rcases List.mem_append.mp hx with hx | hx
    · exact hway x hx
    · exact hrest x hx
  · refine .inr ⟨hdone, hroom, place, ⟨x, List.mem_append_right _ hx, hplace⟩, fun x hx => ?_, hleaf⟩
    rcases List.mem_append.mp hx with hx | hx
    · exact .inl (hway x hx)
    · exact hrest x hx

theorem settles_open {made : Disk} {folder : String} (hfolder : folder ≠ "")
    (hwide : d.Widens made) (refusals : Refusals) (j k : Nat) :
    Settles d target pieces.flatten room
      ((pass refusals j made [.edit (.write (tempPath made folder) [])]).andThen fun opened =>
        (pass refusals k opened (fill (tempPath made folder) target pieces room)).orRemove
          (tempPath made folder)) := by
  rcases pass_cons_cases refusals j made (.edit (.write (tempPath made folder) [])) []
    with ⟨fault, he⟩ | ⟨fault, hd', he⟩ | ⟨d', hd', he⟩
  · rw [he, Passage.andThen_of_refused rfl]
    exact .inl ⟨nofun, nofun, hwide⟩
  · rw [he, Action.left_of_error rfl hd', Passage.andThen_of_refused rfl]
    exact .inl ⟨nofun, fun x hx => List.mem_singleton.mp hx ▸ .wide hwide, hwide⟩
  · rw [Action.perform, Disk.apply] at hd'
    obtain ⟨above, items, n, hroom, rfl⟩ := room_of_write hfolder (ok_of_mapError hd')
    rw [he, Passage.andThen_eq rfl]
    refine .behind (fun x hx => ?_) (settles_fill hwide hroom refusals k)
    exact List.mem_singleton.mp hx ▸ .filling hwide hroom

theorem settles_replace (refusals : Refusals) (d : Disk) (target : String) (pieces : List Bytes)
    (room : Bool) :
    Settles d target pieces.flatten room (replace refusals d target pieces room) := by
  obtain ⟨hway, hwide⟩ := widens_pass refusals 0 d (Path.folder target)
  rw [replace]
  generalize pass refusals 0 d [.edit (.makeFolders (Path.folder target))] = p at hway hwide
  have hstages : ∀ x ∈ p.disks, Stage d x := fun x hx => .wide (hway x hx)
  cases hstop : p.refused with
  | some fault =>
      rw [Passage.andThen_of_refused hstop]
      exact .inl ⟨by simp [hstop], hstages, hwide⟩
  | none =>
      rw [Passage.andThen_eq hstop]
      exact .behind hstages (settles_open (Path.folder_ne_empty target) hwide refusals 1 2)

end FunctionJar.Archive
