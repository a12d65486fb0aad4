import FunctionJar.Proofs.Disk.Collection
import FunctionJar.Proofs.Strategy

namespace FunctionJar.Jvm

open Disk (Rooted Blocked Lists)

variable {run : Launcher} {t t' : Trace} {u : SourceUnit} {workspace : String} {c : CompiledUnit}

theorem collect_gives {es : List Entry} (h : (collect workspace).Gives t es t') :
    t' = t ∧ t.disk.classFiles (Workspace.classFolder workspace) = .ok es := by
  obtain ⟨before, t₁, hget, h⟩ := Job.Gives.bind h
  obtain ⟨rfl, rfl⟩ : t = before ∧ t = t₁ := by
    cases hget
    exact ⟨rfl, rfl⟩
  cases hfiles : t.disk.classFiles (Workspace.classFolder workspace) with
  | error e =>
      rw [hfiles] at h
      exact absurd h Job.not_gives_fail
  | ok files =>
      rw [hfiles] at h
      cases h
      exact ⟨rfl, rfl⟩

theorem classFiles_of_compileSource {language : Language} {tool : Toolchain} {source : String}
    (h : (compileSource run language tool u source workspace).Gives t c t') :
    t'.disk.classFiles (Workspace.classFolder workspace) = .ok c.entries := by
  unfold compileSource at h
  obtain ⟨-, t₁, -, h⟩ := h.bind
  obtain ⟨-, t₂, -, h⟩ := h.bind
  obtain ⟨-, t₃, -, h⟩ := h.bind
  obtain ⟨output, t₄, -, h⟩ := h.bind
  obtain ⟨-, t₅, -, h⟩ := h.bind
  obtain ⟨-, t₆, -, h⟩ := h.bind
  obtain ⟨entries, t₇, hcollect, h⟩ := h.bind
  obtain ⟨hsame, hfiles⟩ := collect_gives hcollect
  simp only at h
  split at h
  · obtain ⟨_, _, hfail, -⟩ := h.bind
    exact absurd hfail Job.not_gives_fail
  · cases h
    rw [hsame]
    exact hfiles

/-- Class files are collected from a tree with nothing but files and folders in it as long as their
paths are short enough; an item with such a name whose path alone is too long is a fault. No order
in which folders list their items makes a difference, and a compiled unit has just these entries,
its own class among them. -/
theorem classFiles_collected {d : Disk} {root : String} {top : List String} {tree : Node}
    (h : Rooted d root top tree) :
    (Blocked root tree [] ∧ d.classFiles root = .error .nameTooLong ∨
      ¬ Blocked root tree [] ∧ ∃ es, d.classFiles root = .ok es ∧ Lists root tree es) ∧
    (∀ (d' : Disk) top' tree', Rooted d' root top' tree' → (∀ p, tree'.see? p = tree.see? p) →
      d'.classFiles root = d.classFiles root) ∧
    ∀ run language tool u source workspace t c t',
      (compileSource run language tool u source workspace).Gives t c t' →
        Workspace.classFolder workspace = root → t'.disk = d →
          Lists root tree c.entries ∧ ∃ e ∈ c.entries, e.path = classPath u.className := by
  refine ⟨Disk.classFiles_cases h, fun d' top' tree' h' hsame => ?_, ?_⟩
  · exact Disk.classFiles_of_see? h h' hsame
  · rintro run language tool u source workspace t c t' hgives rfl rfl
    refine ⟨?_, entry_of_compileSource hgives⟩
    have hfiles := classFiles_of_compileSource hgives
    rcases Disk.classFiles_cases h with ⟨-, herror⟩ | ⟨-, es, hes, hlists⟩
    · rw [hfiles] at herror
      cases herror
    · rwa [Except.ok.inj (hfiles.symm.trans hes)]

def mixedTree : Node :=
  .folder [("B.class", .file [1] false), ("A.txt", .file [2] false),
    ("b.class", .folder [("A.class", .file [3] false), (".class", .file [4] false)])]

theorem regular_mixedTree : mixedTree.Regular := by
  refine .folder (by decide +kernel) (by decide) ?_
  simp only [List.forall_mem_cons, List.not_mem_nil, false_imp_iff, implies_true, and_true]
  refine ⟨.file _ _, .file _ _, .folder (by decide +kernel) (by decide) ?_⟩
  simp only [List.forall_mem_cons, List.not_mem_nil, false_imp_iff, implies_true, and_true]
  exact ⟨.file _ _, .file _ _⟩

theorem classFiles_collected_mixed :
    Rooted ⟨.folder [("c", mixedTree)], []⟩ "/c" ["c"] mixedTree ∧
      Lists "/c" mixedTree [⟨"B.class", [1]⟩, ⟨"b.class/A.class", [3]⟩] := by
  have h : Rooted ⟨.folder [("c", mixedTree)], []⟩ "/c" ["c"] mixedTree :=
    ⟨ok_of_toOption (by decide +kernel), rfl, regular_mixedTree, rfl⟩
  have hbelow : Disk.classFilesBelow ⟨.folder [("c", mixedTree)], []⟩ "/c" Disk.longestPath "" =
      .ok [⟨"B.class", [1]⟩, ⟨"b.class/A.class", [3]⟩] := by
    apply ok_of_toOption
    decide +kernel
  have hfiles : Disk.classFiles ⟨.folder [("c", mixedTree)], []⟩ "/c" =
      .ok [⟨"B.class", [1]⟩, ⟨"b.class/A.class", [3]⟩] := by
    rw [Disk.classFiles, hbelow, ok_bind, List.mergeSort_of_pairwise (by decide +kernel)]
    rfl
  refine ⟨h, ?_⟩
  rcases (classFiles_collected h).1 with ⟨-, herror⟩ | ⟨-, es, hes, hlists⟩
  · rw [hfiles] at herror
    cases herror
  · rwa [← Except.ok.inj (hfiles.symm.trans hes)] at hlists

section Deep

def deepTree : Nat → Node
  | 0 => .folder [("A.class", .file [] false)]
  | depth + 1 => .folder [("x", deepTree depth)]

variable {depth : Nat} {front : List String} {name : String}

theorem plain_x : Plain "x" := by decide +kernel

theorem regular_deepTree (depth : Nat) : (deepTree depth).Regular := by
  induction depth with
  | zero => exact .folder (by decide +kernel) (by decide) (by simpa using .file _ _)
  | succ depth ih =>
      exact .folder (by simpa using plain_x) (by simp) (by simpa using ih)

theorem get?_deepTree (depth : Nat) :
    (deepTree depth).get? (List.replicate depth "x" ++ ["A.class"]) = some (.file [] false) := by
  induction depth with
  | zero => rfl
  | succ depth ih =>
      rw [List.replicate_succ, List.cons_append, Node.get?, deepTree, Node.items,
        Node.lookup_cons_if, if_pos rfl]
      exact ih

theorem front_of_deepTree (h : ((deepTree depth).get? (front ++ [name])).isSome)
    (hname : name ≠ "x") : front = List.replicate depth "x" := by
  induction depth generalizing front with
  | zero =>
      cases front with
      | nil => rfl
      | cons part front =>
          rw [List.cons_append, Node.get?, deepTree, Node.items, Node.lookup_cons_if] at h
          split at h
          · cases front <;> cases h
          · cases h
  | succ depth ih =>
      cases front with
      | nil =>
          rw [List.nil_append, Node.get?, deepTree, Node.items, Node.lookup_cons_if,
            if_neg hname] at h
          cases h
      | cons part front =>
          rw [List.cons_append, Node.get?, deepTree, Node.items, Node.lookup_cons_if] at h
          split at h
          · next hpart => rw [hpart, ih h, List.replicate_succ]
          · cases h

theorem not_short_deepTree (h : ((deepTree Disk.longestPath).get? (front ++ [name])).isSome)
    (hname : Disk.ClassFile name) : ¬ Disk.Short "/c" front := by
  have hdiffer : name ≠ "x" := by
    rintro rfl
    exact absurd (Disk.isClassFile_iff.mpr hname) (by decide +kernel)
  intro hshort
  have hplain : ∀ part ∈ front, Plain part := fun part hpart =>
    (regular_deepTree _).forall_plain h part (List.mem_append_left _ hpart)
  have hlength := hshort.length_lt (by decide) hplain
  rw [front_of_deepTree h hdiffer, List.length_replicate] at hlength
  exact Nat.lt_irrefl _ hlength

def deepDisk : Disk := ⟨.folder [("c", deepTree Disk.longestPath)], []⟩

/-- That a path is too long hides the folder that it leads to, and the class files in it. -/
theorem deep_class_not_collected :
    Rooted deepDisk "/c" ["c"] (deepTree Disk.longestPath) ∧
      (deepTree Disk.longestPath).get? (List.replicate Disk.longestPath "x" ++ ["A.class"]) =
        some (.file [] false) ∧
      deepDisk.classFiles "/c" = .ok [] := by
  have h : Rooted deepDisk "/c" ["c"] (deepTree Disk.longestPath) :=
    ⟨ok_of_toOption (by decide +kernel), rfl, regular_deepTree Disk.longestPath, rfl⟩
  refine ⟨h, get?_deepTree Disk.longestPath, ?_⟩
  rcases Disk.classFiles_cases h with ⟨⟨front, name, -, hthere, hname, hshort, -⟩, -⟩ |
    ⟨-, es, hes, hlists⟩
  · exact absurd hshort (not_short_deepTree hthere hname)
  · cases es with
    | nil => exact hes
    | cons e es =>
        obtain ⟨p, hp⟩ := (hlists.mem e).mp List.mem_cons_self
        obtain ⟨front, name, rfl, hname⟩ := hp.named
        have hplain := h.regular.forall_plain hp.isSome
        exact absurd (hp.short.of_prefix (by decide) hplain (List.prefix_append front [name]))
          (not_short_deepTree hp.isSome hname)

end Deep

end FunctionJar.Jvm
