import FunctionJar.Proofs.Disk

namespace FunctionJar

namespace Node

/-- A node as it is seen from outside, without the items of a folder. -/
def outside : Node → Node
  | folder _ => empty
  | n => n

def see? (p : List String) (n : Node) : Option Node := (n.get? p).map outside

/-- The file or the link at a path. -/
def leaf? (p : List String) (n : Node) : Option Node := (n.see? p).filter (!·.isFolder)

def content? : Node → Option Text.Bytes
  | file content _ => some content
  | _ => none

variable {p q : List String} {m n new : Node} {name : String} {items : List (String × Node)}

theorem see?_cons (name : String) (p : List String) (n : Node) :
    n.see? (name :: p) = (n.items.lookup name).bind (see? p) := by
  rw [see?, get?, Option.map_bind]
  rfl

theorem see?_append (p q : List String) (n : Node) :
    n.see? (p ++ q) = (n.get? p).bind (see? q) := by
  rw [see?, get?_append, Option.map_bind]
  rfl

theorem see?_eq_empty : n.see? p = some empty ↔ ∃ items, n.get? p = some (folder items) := by
  rw [see?, Option.map_eq_some_iff]
  constructor
  · rintro ⟨m, hm, hfolder⟩
    cases m with
    | folder items => exact ⟨items, hm⟩
    | file | link => cases hfolder
  · rintro ⟨items, h⟩
    exact ⟨_, h, rfl⟩

theorem see?_eq_link {target : String} :
    n.see? p = some (link target) ↔ n.get? p = some (link target) := by
  rw [see?, Option.map_eq_some_iff]
  constructor
  · rintro ⟨m, hm, hlink⟩
    cases m with
    | link other => rwa [← Node.link.inj hlink]
    | file | folder => cases hlink
  · intro h
    exact ⟨_, h, rfl⟩

theorem put_of_lookup_none (h : items.lookup name = none) (hp : p ≠ []) :
    (folder items).put (name :: p) new = folder items := by
  cases p with
  | nil => exact absurd rfl hp
  | cons next p => simp only [put, h]

theorem outside_put_cons (name : String) (p : List String) (n new : Node) :
    (n.put (name :: p) new).outside = n.outside := by
  cases n with
  | file | link => cases p <;> rfl
  | folder items =>
      cases p with
      | nil => rfl
      | cons next p =>
          cases h : items.lookup name with
          | none => rw [put_of_lookup_none h (List.cons_ne_nil _ _)]
          | some m => rw [put_cons h]; rfl

theorem see?_put (h : ¬ p <+: q) (n new : Node) : (n.put p new).see? q = n.see? q := by
  induction p generalizing n q with
  | nil => exact absurd List.nil_prefix h
  | cons name p ih =>
      cases q with
      | nil => exact congrArg some (outside_put_cons name p n new)
      | cons other q =>
          cases n with
          | file | link => cases p <;> rfl
          | folder items =>
              have hbelow : ∀ m, items.lookup name = some m → other = name →
                  (m.put p new).see? q = m.see? q := by
                rintro m - rfl
                exact ih (fun hpq => h (List.cons_prefix_cons.mpr ⟨rfl, hpq⟩)) m
              cases hm : items.lookup name with
              | some m =>
                  rw [put_cons hm, see?_cons, see?_cons, Node.items, Node.items, lookup_putItem]
                  by_cases hname : other = name
                  · rw [if_pos hname, Option.bind_some, hbelow m hm hname, hname, hm,
                      Option.bind_some]
                  · rw [if_neg hname]
              | none =>
                  cases p with
                  | cons next p => rw [put_of_lookup_none hm (List.cons_ne_nil _ _)]
                  | nil =>
                      have hname : other ≠ name := by
                        rintro rfl
                        exact h (List.cons_prefix_cons.mpr ⟨rfl, List.nil_prefix⟩)
                      rw [put, see?_cons, see?_cons, Node.items, Node.items, lookup_putItem,
                        if_neg hname]

theorem get?_put_self (p : List String) (n new : Node) :
    (n.put p new).get? p = some new ∨ n.put p new = n := by
  induction p generalizing n with
  | nil => exact .inl rfl
  | cons name p ih =>
      cases n with
      | file | link => exact .inr (by cases p <;> rfl)
      | folder items =>
          cases hm : items.lookup name with
          | some m =>
              rw [put_cons hm, get?, Node.items, lookup_putItem, if_pos rfl, Option.bind_some]
              rcases ih m with h | h
              · exact .inl h
              · exact .inr (by rw [h, putItem_of_lookup hm])
          | none =>
              cases p with
              | cons next p => exact .inr (put_of_lookup_none hm (List.cons_ne_nil _ _))
              | nil =>
                  refine .inl ?_
                  rw [put, get?, Node.items, lookup_putItem, if_pos rfl]
                  rfl

theorem erase_cons (h : items.lookup name = some n) (hp : p ≠ []) :
    (folder items).erase (name :: p) = folder (putItem name (n.erase p) items) := by
  cases p with
  | nil => exact absurd rfl hp
  | cons next p => simp only [erase, h]

theorem erase_of_lookup_none (h : items.lookup name = none) (hp : p ≠ []) :
    (folder items).erase (name :: p) = folder items := by
  cases p with
  | nil => exact absurd rfl hp
  | cons next p => simp only [erase, h]

theorem outside_erase (p : List String) (n : Node) : (n.erase p).outside = n.outside := by
  cases p with
  | nil => cases n <;> rfl
  | cons name p =>
      cases n with
      | file | link => cases p <;> rfl
      | folder items =>
          cases p with
          | nil => rfl
          | cons next p =>
              cases h : items.lookup name with
              | none => rw [erase_of_lookup_none h (List.cons_ne_nil _ _)]
              | some m => rw [erase_cons h (List.cons_ne_nil _ _)]; rfl

theorem see?_erase (h : ¬ p <+: q) (n : Node) : (n.erase p).see? q = n.see? q := by
  induction p generalizing n q with
  | nil => exact absurd List.nil_prefix h
  | cons name p ih =>
      cases q with
      | nil => exact congrArg some (outside_erase (name :: p) n)
      | cons other q =>
          cases n with
          | file | link => cases p <;> rfl
          | folder items =>
              cases p with
              | nil =>
                  have hname : other ≠ name := by
                    rintro rfl
                    exact h (List.cons_prefix_cons.mpr ⟨rfl, List.nil_prefix⟩)
                  rw [erase, see?_cons, see?_cons, Node.items, Node.items, lookup_filter_ne hname]
              | cons next p =>
                  cases hm : items.lookup name with
                  | none => rw [erase_of_lookup_none hm (List.cons_ne_nil _ _)]
                  | some m =>
                      rw [erase_cons hm (List.cons_ne_nil _ _), see?_cons, see?_cons, Node.items,
                        Node.items, lookup_putItem]
                      by_cases hname : other = name
                      · subst hname
                        rw [if_pos rfl, hm, Option.bind_some, Option.bind_some]
                        exact ih (fun hpq => h (List.cons_prefix_cons.mpr ⟨rfl, hpq⟩)) m
                      · rw [if_neg hname]

theorem get?_erase (hp : p ≠ []) (n : Node) : (n.erase p).get? p = none := by
  induction p generalizing n with
  | nil => exact absurd rfl hp
  | cons name p ih =>
      cases n with
      | file | link => cases p <;> rfl
      | folder items =>
          cases p with
          | nil =>
              have hgone : (items.filter fun item => item.1 != name).lookup name = none :=
                lookup_eq_none_of_not_mem fun hmem => by
                  obtain ⟨item, hitem, hname⟩ := List.mem_map.mp hmem
                  simpa [hname] using (List.mem_filter.mp hitem).2
              rw [erase, get?, Node.items, hgone]
              rfl
          | cons next p =>
              cases hm : items.lookup name with
              | none =>
                  rw [erase_of_lookup_none hm (List.cons_ne_nil _ _), get?, Node.items, hm]
                  rfl
              | some m =>
                  rw [erase_cons hm (List.cons_ne_nil _ _), get?, Node.items, lookup_putItem,
                    if_pos rfl]
                  exact ih (List.cons_ne_nil _ _) m

theorem leaf?_put_empty (h : n.get? p = none) (q : List String) :
    (n.put p empty).leaf? q = n.leaf? q := by
  by_cases hpq : p <+: q
  · obtain ⟨x, rfl⟩ := hpq
    rcases get?_put_self p n empty with hput | hput
    · have hbefore : n.leaf? (p ++ x) = none := by
        rw [leaf?, see?_append, h, Option.bind_none, Option.filter_none]
      rw [hbefore, leaf?, see?_append, hput, Option.bind_some]
      cases x <;> rfl
    · rw [hput]
  · rw [leaf?, see?_put hpq]
    rfl

theorem leaf?_erase (p q : List String) (n : Node) :
    (n.erase p).leaf? q = n.leaf? q ∨ p <+: q ∧ (n.erase p).leaf? q = none := by
  by_cases hpq : p <+: q
  · cases p with
    | nil => exact .inl rfl
    | cons name p =>
        refine .inr ⟨hpq, ?_⟩
        obtain ⟨x, rfl⟩ := hpq
        rw [leaf?, see?_append, get?_erase (List.cons_ne_nil _ _), Option.bind_none,
          Option.filter_none]
  · refine .inl ?_
    rw [leaf?, see?_erase hpq]
    rfl

/-- What lies at a path is a file, or there is nothing. -/
def Clear (p : List String) (n : Node) : Prop := ∀ m, n.see? p = some m → m.isFile

/-- A tree has all folders and links of another one, and no other links. -/
def Grows (m n : Node) : Prop := ∀ p, n.see? p = m.see? p ∨
  m.Clear p ∧ ∀ target, n.see? p ≠ some (link target)

theorem Grows.refl (n : Node) : n.Grows n := fun _ => .inl rfl

theorem Clear.ne_link (h : n.Clear p) (target : String) : n.see? p ≠ some (link target) :=
  fun he => absurd (h _ he) Bool.false_ne_true

theorem clear_of_get?_none (h : n.get? p = none) : n.Clear p := by
  intro m hm
  simp [see?, h] at hm

theorem Clear.append (h : n.Clear p) (q : List String) : n.Clear (p ++ q) := by
  cases q with
  | nil => rwa [List.append_nil]
  | cons name q =>
      intro m hm
      rw [see?_append] at hm
      obtain ⟨above, habove, hbelow⟩ := Option.bind_eq_some_iff.mp hm
      have hfile := h _ (by rw [see?, habove]; rfl)
      cases above with
      | file content runs => simp [see?_cons, items] at hbelow
      | folder | link => cases hfile

theorem Grows.trans {l : Node} (h : l.Grows m) (h' : m.Grows n) : l.Grows n := by
  intro p
  rcases h p with hsame | ⟨hclear, hlink⟩
  · rcases h' p with hsame' | ⟨hclear', hlink'⟩
    · exact .inl (hsame'.trans hsame)
    · exact .inr ⟨fun x hx => hclear' x (hsame.trans hx), hlink'⟩
  · rcases h' p with hsame' | ⟨-, hlink'⟩
    · exact .inr ⟨hclear, by rwa [hsame']⟩
    · exact .inr ⟨hclear, hlink'⟩

theorem Grows.folder (h : m.Grows n) (hp : m.see? p = some empty) : n.see? p = some empty := by
  rcases h p with hsame | ⟨hclear, -⟩
  · rw [hsame, hp]
  · exact absurd (hclear _ hp) Bool.false_ne_true

theorem Grows.link_iff (h : m.Grows n) (p : List String) (target : String) :
    n.see? p = some (link target) ↔ m.see? p = some (link target) := by
  rcases h p with hsame | ⟨hclear, hlink⟩
  · rw [hsame]
  · exact iff_of_false (hlink target) (hclear.ne_link target)

theorem grows_put (h : n.Clear p) (hitems : new.items = []) (hlink : new.isLink = false) :
    n.Grows (n.put p new) := by
  intro q
  by_cases hpq : p <+: q
  · obtain ⟨x, rfl⟩ := hpq
    rcases get?_put_self p n new with hput | hput
    · refine .inr ⟨h.append x, fun target hx => ?_⟩
      rw [see?_append, hput, Option.bind_some] at hx
      cases x with
      | nil => rw [Option.some.inj (see?_eq_link.mp hx)] at hlink; cases hlink
      | cons name x => simp [see?_cons, hitems] at hx
    · exact .inl (by rw [hput])
  · exact .inl (see?_put hpq n new)

end Node

end FunctionJar
