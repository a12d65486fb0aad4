import FunctionJar.Proofs.Disk.Below
import Mathlib.Data.List.Infix

namespace FunctionJar.Disk

def ClassFile (name : String) : Prop := ∃ stem, stem ≠ "" ∧ name = stem ++ ".class"

theorem classFile_of_split {name : String} {before : List (List Char)} {last : List Char}
    (hsplit : (Text.splitAt '.' name.toList).reverse = last :: before) (hne : before ≠ [])
    (hbefore : before ≠ [[]]) (hlast : String.ofList last = "class") : ClassFile name := by
  have hparts : (Text.splitAt '.' name.toList).map String.ofList =
      before.reverse.map String.ofList ++ ["class"] := by
    rw [← List.reverse_reverse (Text.splitAt '.' name.toList), hsplit, List.reverse_cons,
      List.map_append, List.map_singleton, hlast]
  have hdot : ".".toList = ['.'] := rfl
  have hname := Text.join_map_splitAt hdot name
  have hfront : before.reverse.map String.ofList ≠ [] := by simpa using hne
  rw [hparts, Text.join_concat, if_neg hfront] at hname
  refine ⟨Text.join "." (before.reverse.map String.ofList), fun hempty => ?_, ?_⟩
  · rw [hempty] at hname
    rw [← hname, show ("" ++ "." ++ "class").toList = '.' :: "class".toList from rfl] at hsplit
    exact hbefore (List.cons.inj hsplit).2.symm
  · rw [← hname, String.append_assoc]
    rfl

theorem isClassFile_iff {name : String} : isClassFile name ↔ ClassFile name := by
  rw [isClassFile, beq_iff_eq]
  constructor
  · intro h
    unfold extension? at h
    split at h
    · cases h
    · cases h
    · next last before hne hsplit =>
        split at h
        · cases h
        · next hbefore => exact classFile_of_split hsplit hne hbefore (Option.some.inj h)
  · rintro ⟨stem, hstem, rfl⟩
    have hsplit : (Text.splitAt '.' (stem ++ ".class").toList).reverse =
        "class".toList :: (Text.splitAt '.' stem.toList).reverse := by
      rw [String.toList_append, show ".class".toList = '.' :: "class".toList from rfl,
        Text.splitAt_append, List.reverse_append]
      rfl
    have hbefore : (Text.splitAt '.' stem.toList).reverse ≠ [[]] := by
      intro he
      have hall := Text.intercalate_splitAt '.' stem.toList
      rw [List.reverse_eq_iff.mp he] at hall
      exact hstem (String.toList_eq_nil_iff.mp hall.symm)
    rw [extension?, hsplit]
    cases hreverse : (Text.splitAt '.' stem.toList).reverse with
    | nil => exact absurd (List.reverse_eq_nil_iff.mp hreverse) (Text.splitAt_ne_nil _ _)
    | cons part rest => simp only [if_neg (hreverse ▸ hbefore), String.ofList_toList]

structure Collected (root : String) (tree : Node) (p : List String) (e : Entry) : Prop where
  there : ∃ runs, tree.get? p = some (.file e.content runs)
  path : e.path = Text.join "/" p
  named : ∃ front name, p = front ++ [name] ∧ ClassFile name
  short : Short root p

/-- The entries of the class files at a path and below it. -/
structure Found (root : String) (tree : Node) (q : List String) (es : List Entry) : Prop where
  mem : ∀ e, e ∈ es ↔ ∃ p, q <+: p ∧ Collected root tree p e
  distinct : es.Pairwise fun e e' => e.path ≠ e'.path

/-- At a path or below it, there is an item with a class file's name whose path is too long though
the path of its folder is not. -/
def Blocked (root : String) (tree : Node) (q : List String) : Prop :=
  ∃ front name, q <+: front ++ [name] ∧ (tree.get? (front ++ [name])).isSome ∧ ClassFile name ∧
    Short root front ∧ ¬ Short root (front ++ [name])

/-- What comes of collecting at a path and below it. -/
inductive Answers (root : String) (tree : Node) (q : List String) :
    Except OsError (List Entry) → Prop
  | found {es} (hfound : Found root tree q es) (hclear : ¬ Blocked root tree q) :
      Answers root tree q (.ok es)
  | blocked (h : Blocked root tree q) : Answers root tree q (.error .nameTooLong)

variable {d : Disk} {root name : String} {top p q r : List String} {tree n : Node}
  {items : List (String × Node)} {e : Entry}

theorem Collected.isSome (h : Collected root tree p e) : (tree.get? p).isSome := by
  obtain ⟨runs, hp⟩ := h.there
  rw [hp]
  rfl

theorem exists_item (hregular : tree.Regular) (hq : tree.get? q = some (.folder items))
    (hp : (tree.get? p).isSome) (hle : q <+: p) (hne : p ≠ q) :
    ∃ item ∈ items, q ++ [item.1] <+: p := by
  obtain ⟨rest, rfl⟩ := hle
  cases rest with
  | nil => exact absurd (List.append_nil q) hne
  | cons name rest =>
      obtain ⟨m, hm⟩ : ∃ m, tree.get? (q ++ [name]) = some m := by
        obtain ⟨n, hn⟩ := Option.isSome_iff_exists.mp hp
        rw [List.append_cons, Node.get?_append] at hn
        obtain ⟨m, hm, -⟩ := Option.bind_eq_some_iff.mp hn
        exact ⟨m, hm⟩
      exact ⟨(name, m), (hregular.mem_iff hq).mpr hm, rest, by simp⟩

theorem Collected.path_inj {p' : List String} {e' : Entry} (hregular : tree.Regular)
    (h : Collected root tree p e) (h' : Collected root tree p' e') (he : e.path = e'.path) :
    p = p' := by
  obtain ⟨front, name, hp, -⟩ := h.named
  obtain ⟨front', name', hp', -⟩ := h'.named
  have hparts := (descends_join (by simp [hp]) (hregular.forall_plain h.isSome)).parts
  have hparts' := (descends_join (by simp [hp']) (hregular.forall_plain h'.isSome)).parts
  rw [← hparts, ← h.path, he, h'.path, hparts']

section Folder

variable {f : String × Node → Except OsError (List Entry)} {found : List (List Entry)}

theorem Collected.exists_item (h : Collected root tree p e) (hregular : tree.Regular)
    (hq : tree.get? q = some (.folder items)) (hle : q <+: p) :
    ∃ item ∈ items, q ++ [item.1] <+: p := by
  refine Disk.exists_item hregular hq h.isSome hle ?_
  rintro rfl
  obtain ⟨runs, hp⟩ := h.there
  rw [hq] at hp
  cases hp

theorem Blocked.exists_item (h : Blocked root tree q) (hregular : tree.Regular)
    (hq : tree.get? q = some (.folder items)) (hshort : Short root q) :
    ∃ item ∈ items, Blocked root tree (q ++ [item.1]) := by
  obtain ⟨front, name, hle, hthere, hname, hfront, hlong⟩ := h
  obtain ⟨item, hitem, hbelow⟩ := Disk.exists_item hregular hq hthere hle fun he =>
    hlong (he ▸ hshort)
  exact ⟨item, hitem, front, name, hbelow, hthere, hname, hfront, hlong⟩

theorem Blocked.of_item (h : Blocked root tree (q ++ [name])) : Blocked root tree q := by
  obtain ⟨front, last, hle, hrest⟩ := h
  exact ⟨front, last, (List.prefix_append q _).trans hle, hrest⟩

/-- What was found in a folder, item by item. -/
structure Gathered (root : String) (tree : Node) (q : List String) (items : List (String × Node))
    (f : String × Node → Except OsError (List Entry)) (found : List (List Entry)) : Prop where
  each : items.map f = found.map .ok
  found : ∀ item ∈ items, ∀ es, f item = .ok es → Found root tree (q ++ [item.1]) es

theorem Gathered.exists_of_mem (h : Gathered root tree q items f found) {es : List Entry}
    (hes : es ∈ found) : ∃ item ∈ items, Found root tree (q ++ [item.1]) es := by
  have hok : Except.ok es ∈ items.map f := h.each ▸ List.mem_map_of_mem hes
  obtain ⟨item, hitem, he⟩ := List.mem_map.mp hok
  exact ⟨item, hitem, h.found item hitem es he⟩

theorem Gathered.exists_of_item (h : Gathered root tree q items f found) {item : String × Node}
    (hitem : item ∈ items) : ∃ es ∈ found, Found root tree (q ++ [item.1]) es := by
  have hok : f item ∈ found.map .ok := h.each ▸ List.mem_map_of_mem hitem
  obtain ⟨es, hes, he⟩ := List.mem_map.mp hok
  exact ⟨es, hes, h.found item hitem es he.symm⟩

theorem Gathered.mem (h : Gathered root tree q items f found) (hregular : tree.Regular)
    (hq : tree.get? q = some (.folder items)) (e : Entry) :
    e ∈ found.flatten ↔ ∃ p, q <+: p ∧ Collected root tree p e := by
  rw [List.mem_flatten]
  constructor
  · rintro ⟨es, hes, he⟩
    obtain ⟨item, -, hfound⟩ := h.exists_of_mem hes
    obtain ⟨p, hle, hp⟩ := (hfound.mem e).mp he
    exact ⟨p, (List.prefix_append q _).trans hle, hp⟩
  · rintro ⟨p, hle, hp⟩
    obtain ⟨item, hitem, hbelow⟩ := hp.exists_item hregular hq hle
    obtain ⟨es, hes, hfound⟩ := h.exists_of_item hitem
    exact ⟨es, hes, (hfound.mem e).mpr ⟨p, hbelow, hp⟩⟩

theorem Gathered.distinct (h : Gathered root tree q items f found) (hregular : tree.Regular)
    (hq : tree.get? q = some (.folder items)) :
    found.flatten.Pairwise fun e e' => e.path ≠ e'.path := by
  rw [List.pairwise_flatten]
  constructor
  · intro es hes
    obtain ⟨item, -, hfound⟩ := h.exists_of_mem hes
    exact hfound.distinct
  · have hnames : items.Pairwise fun a b => a.1 ≠ b.1 :=
      List.pairwise_map.mp (hregular.distinct q items hq)
    have hitems : (items.map f).Pairwise fun a b => ∀ es es', a = .ok es → b = .ok es' →
        ∀ e ∈ es, ∀ e' ∈ es', e.path ≠ e'.path := by
      rw [List.pairwise_map]
      refine hnames.imp_of_mem fun {a b} ha hb hne es es' hes hes' e he e' he' hpath => ?_
      obtain ⟨p, hle, hp⟩ := ((h.found a ha es hes).mem e).mp he
      obtain ⟨p', hle', hp'⟩ := ((h.found b hb es' hes').mem e').mp he'
      obtain rfl := hp.path_inj hregular hp' hpath
      have hsame : q ++ [a.1] = q ++ [b.1] :=
        List.prefix_of_prefix_length_le hle hle' (by simp) |>.eq_of_length (by simp)
      exact hne (List.singleton_inj.mp (List.append_cancel_left hsame))
    rw [h.each, List.pairwise_map] at hitems
    exact hitems.imp fun hdiffer => hdiffer _ _ rfl rfl

theorem Answers.folder (hregular : tree.Regular) (hq : tree.get? q = some (.folder items))
    (hshort : Short root q) (hitems : ∀ item ∈ items, Answers root tree (q ++ [item.1]) (f item)) :
    Answers root tree q ((items.mapM f).map List.flatten) := by
  cases hf : items.mapM f with
  | error e =>
      obtain ⟨item, hitem, he⟩ := mapM_error hf
      have hanswer := hitems item hitem
      rw [he] at hanswer
      cases hanswer with
      | blocked h => exact .blocked h.of_item
  | ok found =>
      have hgathered : Gathered root tree q items f found := by
        refine ⟨mapM_ok hf, fun item hitem es he => ?_⟩
        have hanswer := hitems item hitem
        rw [he] at hanswer
        cases hanswer with
        | found hfound _ => exact hfound
      refine .found ⟨hgathered.mem hregular hq, hgathered.distinct hregular hq⟩ fun hblocked => ?_
      obtain ⟨item, hitem, hbelow⟩ := hblocked.exists_item hregular hq hshort
      have hok : f item ∈ found.map .ok := hgathered.each ▸ List.mem_map_of_mem hitem
      obtain ⟨es, -, he⟩ := List.mem_map.mp hok
      have hanswer := hitems item hitem
      rw [← he] at hanswer
      cases hanswer with
      | found _ hclear => exact hclear hbelow

end Folder

theorem join_concat_eq (hplain : ∀ part ∈ q, Plain part) :
    (if Text.join "/" q = "" then name else Text.join "/" q ++ "/" ++ name) =
      Text.join "/" (q ++ [name]) := by
  rw [Text.join_concat]
  simp only [join_eq_empty_iff hplain]

def itemClasses (d : Disk) (root : String) (depth : Nat) (q : List String) (name : String) :
    Except OsError (List Entry) := do
  let below := q ++ [name]
  if d.isFolder (pathIn root below) then d.classFilesBelow root depth (Text.join "/" below)
  else if isClassFile name then return [⟨Text.join "/" below, ← d.read (pathIn root below)⟩]
  else return []

theorem classFilesBelow_folder (h : Rooted d root top tree)
    (hq : tree.get? q = some (.folder items)) (hshort : Short root q) (depth : Nat) :
    d.classFilesBelow root (depth + 1) (Text.join "/" q) =
      (items.mapM fun item => d.itemClasses root depth q item.1).map List.flatten := by
  have hplain := h.regular.forall_plain (by rw [hq]; rfl)
  have hlist : d.list (under root (Text.join "/" q)) = .ok (items.map (·.1)) := h.list hq hshort
  rw [classFilesBelow, hlist, ok_bind, List.mapM_map]
  simp only [join_concat_eq hplain]
  rfl

theorem itemClasses_file (hname : d.isFolder (pathIn root (q ++ [name])) = false) (depth : Nat) :
    d.itemClasses root depth q name =
      if isClassFile name then
        (d.read (pathIn root (q ++ [name]))).map fun content =>
          [⟨Text.join "/" (q ++ [name]), content⟩]
      else .ok [] := by
  simp only [itemClasses, hname, Bool.false_eq_true, if_false]
  rfl

theorem answers_long (h : Rooted d root top tree) (hq : Short root q)
    (hthere : (tree.get? (q ++ [name])).isSome) (hlong : ¬ Short root (q ++ [name])) (depth : Nat) :
    Answers root tree (q ++ [name]) (d.itemClasses root depth q name) := by
  obtain ⟨n, hn⟩ := Option.isSome_iff_exists.mp hthere
  have hbelow : ∀ p, q ++ [name] <+: p → (tree.get? p).isSome → ¬ Short root p :=
    fun p hle hp hshort =>
      hlong (hshort.of_prefix h.root_ne_empty (h.regular.forall_plain hp) hle)
  rw [itemClasses_file (by rw [h.isFolder hn, decide_eq_false hlong, Bool.false_and])]
  split
  · next hname =>
      rw [h.read_of_not_short hthere hlong]
      exact .blocked ⟨q, name, List.prefix_rfl, hthere, isClassFile_iff.mp hname, hq, hlong⟩
  · next hname =>
      refine .found ⟨fun e => iff_of_false List.not_mem_nil ?_, .nil⟩ ?_
      · rintro ⟨p, hle, hp⟩
        exact hbelow p hle hp.isSome hp.short
      · rintro ⟨front, last, hle, hlast, hclass, hfront, -⟩
        rcases List.prefix_concat_iff.mp hle with he | hle
        · obtain ⟨-, hsame⟩ := List.append_inj' he rfl
          rw [List.singleton_inj.mp hsame] at hname
          exact hname (isClassFile_iff.mpr hclass)
        · obtain ⟨items, hitems⟩ := Node.Regular.isSome_above hlast
          exact hbelow front hle (by rw [hitems]; rfl) hfront

theorem eq_of_file {content : Text.Bytes} {runs : Bool}
    (hr : tree.get? r = some (.file content runs)) (hp : (tree.get? p).isSome) (hle : r <+: p) :
    p = r := by
  obtain ⟨rest, rfl⟩ := hle
  cases rest with
  | nil => exact List.append_nil r
  | cons name rest =>
      rw [Node.get?_append, hr] at hp
      cases hp

theorem answers_file {content : Text.Bytes} {runs : Bool} (h : Rooted d root top tree)
    (hn : tree.get? (q ++ [name]) = some (.file content runs)) (hshort : Short root (q ++ [name]))
    (depth : Nat) : Answers root tree (q ++ [name]) (d.itemClasses root depth q name) := by
  have hclear : ¬ Blocked root tree (q ++ [name]) := by
    rintro ⟨front, last, hle, hlast, -, -, hlong⟩
    exact hlong (eq_of_file hn hlast hle ▸ hshort)
  rw [itemClasses_file (by rw [h.isFolder hn]; exact Bool.and_false _), h.read hn hshort]
  split
  · next hname =>
      refine .found ⟨fun e => ?_, List.pairwise_singleton _ _⟩ hclear
      rw [List.mem_singleton]
      constructor
      · rintro rfl
        exact ⟨q ++ [name], List.prefix_rfl, ⟨runs, hn⟩, rfl,
          ⟨q, name, rfl, isClassFile_iff.mp hname⟩, hshort⟩
      · rintro ⟨p, hle, hp⟩
        obtain rfl := eq_of_file hn hp.isSome hle
        obtain ⟨runs', hthere⟩ := hp.there
        rw [hn] at hthere
        obtain ⟨hcontent, -⟩ := Node.file.inj (Option.some.inj hthere)
        cases e
        exact Entry.mk.injEq .. ▸ ⟨hp.path, hcontent.symm⟩
  · next hname =>
      refine .found ⟨fun e => iff_of_false List.not_mem_nil ?_, .nil⟩ hclear
      rintro ⟨p, hle, hp⟩
      obtain rfl := eq_of_file hn hp.isSome hle
      obtain ⟨front, last, he, hclass⟩ := hp.named
      obtain ⟨-, hsame⟩ := List.append_inj' he rfl
      rw [List.singleton_inj.mp hsame] at hname
      exact hname (isClassFile_iff.mpr hclass)

theorem answers_classFilesBelow (h : Rooted d root top tree)
    (hq : tree.get? q = some (.folder items)) (hshort : Short root q) {depth : Nat}
    (hdepth : longestPath ≤ depth + q.length) :
    Answers root tree q (d.classFilesBelow root depth (Text.join "/" q)) := by
  induction depth generalizing q items with
  | zero =>
      have hlength := hshort.length_lt h.root_ne_empty (h.regular.forall_plain (by rw [hq]; rfl))
      omega
  | succ depth ih =>
      rw [classFilesBelow_folder h hq hshort]
      refine .folder h.regular hq hshort fun (name, n) hitem => ?_
      have hn : tree.get? (q ++ [name]) = some n := (h.regular.mem_iff hq).mp hitem
      by_cases hbelow : Short root (q ++ [name])
      · cases n with
        | link target => exact absurd hn (h.regular.linkless _ target)
        | file content runs => exact answers_file h hn hbelow depth
        | folder inner =>
            have hfolder : d.isFolder (pathIn root (q ++ [name])) = true := by
              rw [h.isFolder hn, decide_eq_true hbelow]
              rfl
            simp only [itemClasses, hfolder, if_true]
            exact ih hn hbelow (by rw [List.length_append, List.length_singleton]; omega)
      · exact answers_long h hshort (by rw [hn]; rfl) hbelow depth

/-- All class files of a tree whose paths are short enough, each once, in the order of the paths. -/
structure Lists (root : String) (tree : Node) (es : List Entry) : Prop where
  mem : ∀ e, e ∈ es ↔ ∃ p, Collected root tree p e
  sorted : es.Pairwise fun e e' => e.path < e'.path

theorem Found.lists {es : List Entry} (h : Found root tree [] es) :
    Lists root tree (es.mergeSort fun a b => a.path ≤ b.path) where
  mem e := by
    rw [List.mem_mergeSort, h.mem]
    simp only [List.nil_prefix, true_and]
  sorted := by
    have hle : (es.mergeSort fun a b => a.path ≤ b.path).Pairwise fun a b => a.path ≤ b.path := by
      refine (List.pairwise_mergeSort (fun a b c hab hbc => ?_) (fun a b => ?_) es).imp fun hle =>
        of_decide_eq_true hle
      · exact decide_eq_true (String.le_trans (of_decide_eq_true hab) (of_decide_eq_true hbc))
      · simpa using String.le_total a.path b.path
    have hdistinct : (es.mergeSort fun a b => a.path ≤ b.path).Pairwise fun a b =>
        a.path ≠ b.path :=
      h.distinct.perm (List.mergeSort_perm es _).symm fun hne => hne.symm
    exact hle.imp₂ (fun _ _ hle hne => Std.lt_of_le_of_ne hle hne) hdistinct

theorem Lists.unique {es es' : List Entry} (h : Lists root tree es) (h' : Lists root tree es') :
    es = es' := by
  have hnodup {l : List Entry} (hl : Lists root tree l) : l.Nodup := by
    rw [List.Nodup]
    refine hl.sorted.imp fun {a b} hlt he => ?_
    rw [he] at hlt
    exact String.lt_irrefl _ hlt
  have hperm : es.Perm es' := (List.perm_ext_iff_of_nodup (hnodup h) (hnodup h')).mpr fun e =>
    (h.mem e).trans (h'.mem e).symm
  refine hperm.eq_of_pairwise (fun a b _ _ hab hba => ?_) h.sorted h'.sorted
  exact absurd (String.lt_trans hab hba) (String.lt_irrefl _)

theorem classFiles_cases (h : Rooted d root top tree) :
    Blocked root tree [] ∧ d.classFiles root = .error .nameTooLong ∨
      ¬ Blocked root tree [] ∧ ∃ es, d.classFiles root = .ok es ∧ Lists root tree es := by
  obtain ⟨items, hitems⟩ : ∃ items, tree.get? [] = some (.folder items) := by
    cases tree with
    | folder items => exact ⟨items, rfl⟩
    | file | link => cases h.folder
  have hanswer : Answers root tree [] (d.classFilesBelow root longestPath (Text.join "/" [])) :=
    answers_classFilesBelow h hitems h.short_nil (Nat.le_refl longestPath)
  have hresult : d.classFiles root = (d.classFilesBelow root longestPath (Text.join "/" [])).map
      fun es => es.mergeSort fun a b => a.path ≤ b.path := rfl
  rw [hresult]
  generalize d.classFilesBelow root longestPath (Text.join "/" []) = result at hanswer
  cases hanswer with
  | found hfound hclear => exact .inr ⟨hclear, _, rfl, hfound.lists⟩
  | blocked hblocked => exact .inl ⟨hblocked, rfl⟩

variable {tree' : Node} {d' : Disk} {top' : List String}

theorem Collected.of_see? (h : Collected root tree p e) (hsame : tree'.see? p = tree.see? p) :
    Collected root tree' p e where
  there := by
    obtain ⟨runs, hp⟩ := h.there
    exact ⟨runs, Node.see?_eq_file.mp (hsame.trans (Node.see?_eq_file.mpr hp))⟩
  path := h.path
  named := h.named
  short := h.short

theorem Blocked.of_see? (h : Blocked root tree q) (hsame : ∀ p, tree'.see? p = tree.see? p) :
    Blocked root tree' q := by
  obtain ⟨front, name, hle, hthere, hrest⟩ := h
  refine ⟨front, name, hle, ?_, hrest⟩
  rwa [← Node.isSome_see?, hsame, Node.isSome_see?]

theorem Lists.of_see? {es : List Entry} (h : Lists root tree es)
    (hsame : ∀ p, tree'.see? p = tree.see? p) : Lists root tree' es where
  mem e := (h.mem e).trans (exists_congr fun p =>
    ⟨fun hp => hp.of_see? (hsame p), fun hp => hp.of_see? (hsame p).symm⟩)
  sorted := h.sorted

theorem classFiles_of_see? (h : Rooted d root top tree) (h' : Rooted d' root top' tree')
    (hsame : ∀ p, tree'.see? p = tree.see? p) : d'.classFiles root = d.classFiles root := by
  rcases classFiles_cases h with ⟨hblocked, hfiles⟩ | ⟨hclear, es, hfiles, hlists⟩
  · rcases classFiles_cases h' with ⟨-, hfiles'⟩ | ⟨hclear', -⟩
    · rw [hfiles, hfiles']
    · exact absurd (hblocked.of_see? hsame) hclear'
  · rcases classFiles_cases h' with ⟨hblocked', -⟩ | ⟨-, es', hfiles', hlists'⟩
    · exact absurd (hblocked'.of_see? fun p => (hsame p).symm) hclear
    · rw [hfiles, hfiles', hlists'.unique (hlists.of_see? hsame)]

end FunctionJar.Disk
