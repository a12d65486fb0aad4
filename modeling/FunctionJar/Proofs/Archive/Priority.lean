import FunctionJar.Proofs.Archive.Order

namespace FunctionJar.Archive

open Text (Bytes)

/-- `u` is the first of the units with an entry at the path, and `f` is its first entry there. -/
structure Holds (us : List CompiledUnit) (path : String) (u : CompiledUnit) (f : Entry) : Prop where
  unit : ∃ before after, us = before ++ u :: after ∧
    ∀ v ∈ before, ∀ g ∈ v.entries, g.path ≠ path
  entry : ∃ before after, u.entries = before ++ f :: after ∧ ∀ g ∈ before, g.path ≠ path
  path_eq : f.path = path

inductive Objection (us : List CompiledUnit) (e : Entry) : String → Prop
  | reserved (hreserved : e.path = manifestPath ∨ e.path = indexPath) :
      Objection us e ("archive entry " ++ e.path ++ " is reserved")
  | taken {u : CompiledUnit} {f : Entry}
      (hfree : ¬ (e.path = manifestPath ∨ e.path = indexPath)) (hholds : Holds us e.path u f)
      (hcontent : f.content ≠ e.content) :
      Objection us e
        ("archive entry " ++ e.path ++ " clashes with the one produced by " ++ u.className)

inductive Resolved (us : List CompiledUnit) : Outcome → Outcome → Prop
  | failed (f : UnitFailure) : Resolved us (.failed f) (.failed f)
  | kept {u : CompiledUnit} (hnone : ∀ e ∈ u.entries, ∀ reason, ¬ Objection us e reason) :
      Resolved us (.compiled u) (.compiled u)
  | refused {u : CompiledUnit} {before after : List Entry} {e : Entry} {reason : String}
      (hentries : u.entries = before ++ e :: after)
      (hbefore : ∀ f ∈ before, ∀ reason, ¬ Objection us f reason)
      (hobjection : Objection us e reason) :
      Resolved us (.compiled u) (.failed ⟨u.className, ⟨.compileError, reason⟩⟩)

/-- Results are resolved one after the other, each beside the units that stayed compiled before it. -/
inductive Greedy : List CompiledUnit → List UnitResult → List UnitResult → Prop
  | nil (us : List CompiledUnit) : Greedy us [] []
  | cons {us : List CompiledUnit} {index duration : Nat} {o o' : Outcome} {xs ys : List UnitResult}
      (hfirst : Resolved us o o') (hrest : Greedy (us ++ o'.unit?.toList) xs ys) :
      Greedy us (⟨index, o, duration⟩ :: xs) (⟨index, o', duration⟩ :: ys)

def occupies (path : String) (u : CompiledUnit) : Bool := (entryAt? u.entries path).isSome

theorem occupies_eq_false {path : String} {u : CompiledUnit} :
    occupies path u = false ↔ ∀ e ∈ u.entries, e.path ≠ path := by
  simp [occupies, entryAt?]

def holder? (us : List CompiledUnit) (path : String) : Option CompiledUnit :=
  us.find? (occupies path)

theorem holds_iff {us : List CompiledUnit} {path : String} {u : CompiledUnit} {f : Entry} :
    Holds us path u f ↔ holder? us path = some u ∧ entryAt? u.entries path = some f := by
  constructor
  · rintro ⟨⟨before, after, hus, hbefore⟩, ⟨front, back, hentries, hfront⟩, hpath⟩
    have hentry : entryAt? u.entries path = some f :=
      List.find?_eq_some_iff_append.mpr ⟨by simpa using hpath, front, back, hentries,
        fun g hg => by simpa using hfront g hg⟩
    constructor
    · refine List.find?_eq_some_iff_append.mpr ⟨?_, before, after, hus, fun v hv => ?_⟩
      · rw [occupies, hentry, Option.isSome_some]
      · rw [occupies_eq_false.mpr (hbefore v hv)]
        rfl
    · exact hentry
  · rintro ⟨hunit, hentry⟩
    obtain ⟨-, before, after, hus, hbefore⟩ := List.find?_eq_some_iff_append.mp hunit
    obtain ⟨hpath, front, back, hentries, hfront⟩ := List.find?_eq_some_iff_append.mp hentry
    refine ⟨⟨before, after, hus, fun v hv => ?_⟩,
      ⟨front, back, hentries, fun g hg => by simpa using hfront g hg⟩, by simpa using hpath⟩
    exact occupies_eq_false.mp (by simpa using hbefore v hv)

theorem entryAt?_entries (us : List CompiledUnit) (path : String) :
    entryAt? (entries us) path = (holder? us path).bind fun u => entryAt? u.entries path := by
  induction us with
  | nil => rfl
  | cons u us ih =>
      have hcons : entries (u :: us) = u.entries ++ entries us := rfl
      rw [hcons, entryAt?_append, ih]
      cases hu : entryAt? u.entries path with
      | some e =>
          have hoccupies : occupies path u = true := by rw [occupies, hu, Option.isSome_some]
          have hholder : holder? (u :: us) path = some u := List.find?_cons_of_pos hoccupies
          rw [hholder, Option.some_or, Option.bind_some, hu]
      | none =>
          have hfree : ¬ occupies path u = true := by simp [occupies, hu]
          have hholder : holder? (u :: us) path = holder? us path := List.find?_cons_of_neg hfree
          rw [hholder, Option.none_or]

theorem entries_concat (us : List CompiledUnit) (u : CompiledUnit) :
    entries (us ++ [u]) = entries us ++ u.entries := by
  simp [entries]

variable {δ : Type} {digest : Bytes → δ} {claims : List (Claim δ)} {us : List CompiledUnit}

theorem owner_claim (owner : String) (claims : List (Claim δ)) (es : List Entry) (path : String) :
    (claimOn? (claim digest owner claims es) path).map (·.owner) =
      ((claimOn? claims path).map (·.owner)).or ((entryAt? es path).map fun _ => owner) := by
  induction es generalizing claims with
  | nil => simp [claim, entryAt?]
  | cons e es ih =>
      rw [claim]
      split
      · next htaken =>
          rw [ih]
          by_cases hpath : e.path = path
          · obtain ⟨c, hc⟩ := Option.isSome_iff_exists.mp (hpath ▸ htaken)
            simp [hc]
          · simp [entryAt?, hpath]
      · next hfree =>
          have hnone : claims.find? (fun c => c.path == e.path) = none := by
            simpa [claimOn?] using hfree
          rw [ih]
          by_cases hpath : e.path = path
          · subst hpath
            simp [claimOn?, entryAt?, List.find?_append, hnone]
          · simp [claimOn?, entryAt?, List.find?_append, hpath]

/-- The claims say of every path which of the units holds it, and the digest of what lies there. -/
structure Recorded (digest : Bytes → δ) (claims : List (Claim δ)) (us : List CompiledUnit) : Prop where
  held : Held digest claims (entries us)
  owner : ∀ path, (claimOn? claims path).map (·.owner) = (holder? us path).map (·.className)

theorem recorded_nil : Recorded digest [] [] := ⟨Held.nil, fun _ => rfl⟩

theorem Recorded.claim (h : Recorded digest claims us) (u : CompiledUnit) :
    Recorded digest (claim digest u.className claims u.entries) (us ++ [u]) := by
  constructor
  · rw [entries_concat]
    exact h.held.claim
  · intro path
    rw [owner_claim, h.owner, holder?, holder?, List.find?_append]
    cases us.find? (occupies path) with
    | some v => rfl
    | none => cases hu : entryAt? u.entries path <;> simp [occupies, hu]

theorem Recorded.exists_holds (h : Recorded digest claims us) {path : String} {c : Claim δ}
    (hc : claimOn? claims path = some c) :
    ∃ u f, Holds us path u f ∧ c.owner = u.className ∧ c.digest = digest f.content := by
  have hheld := h.held path
  have howner := h.owner path
  rw [hc, Option.map_some] at hheld howner
  obtain ⟨u, hu, hname⟩ := Option.map_eq_some_iff.mp howner.symm
  obtain ⟨f, hf, hdigest⟩ := Option.map_eq_some_iff.mp hheld.symm
  rw [entryAt?_entries, hu, Option.bind_some] at hf
  exact ⟨u, f, holds_iff.mpr ⟨hu, hf⟩, hname.symm, hdigest.symm⟩

theorem Recorded.not_holds (h : Recorded digest claims us) {path : String}
    (hc : claimOn? claims path = none) (u : CompiledUnit) (f : Entry) : ¬ Holds us path u f := by
  intro hholds
  have howner := h.owner path
  rw [hc, (holds_iff.mp hholds).1] at howner
  cases howner

theorem Holds.unique {path : String} {u v : CompiledUnit} {f g : Entry} (hu : Holds us path u f)
    (hv : Holds us path v g) : u = v ∧ f = g := by
  obtain ⟨hu, hf⟩ := holds_iff.mp hu
  obtain ⟨hv, hg⟩ := holds_iff.mp hv
  obtain rfl : u = v := Option.some.inj (hu.symm.trans hv)
  exact ⟨rfl, Option.some.inj (hf.symm.trans hg)⟩

theorem Holds.mem {path : String} {u : CompiledUnit} {f : Entry} (h : Holds us path u f) :
    f ∈ entries us := by
  obtain ⟨before, after, hus, -⟩ := h.unit
  obtain ⟨front, back, hentries, -⟩ := h.entry
  refine List.mem_flatMap.mpr ⟨u, by simp [hus], by simp [hentries]⟩

variable [DecidableEq δ]

def TellsApart (digest : Bytes → δ) (es : List Entry) : Prop :=
  ∀ e ∈ es, ∀ f ∈ es, digest e.content = digest f.content → e.content = f.content

theorem Recorded.clashOf? (h : Recorded digest claims us) {all : List Entry}
    (hall : TellsApart digest all) (hus : entries us ⊆ all) {e : Entry} (he : e ∈ all) :
    match clashOf? digest claims e with
    | some clash => Objection us e clash.message
    | none => ∀ reason, ¬ Objection us e reason := by
  unfold Archive.clashOf?
  by_cases hreserved : isReserved e.path = true
  · rw [if_pos hreserved]
    exact .reserved (isReserved_iff.mp hreserved)
  · rw [if_neg hreserved]
    have hfree : ¬ (e.path = manifestPath ∨ e.path = indexPath) := fun h =>
      hreserved (isReserved_iff.mpr h)
    cases hclaim : claimOn? claims e.path with
    | none =>
        intro reason hobjection
        cases hobjection with
        | reserved h => exact hfree h
        | taken _ hholds _ => exact h.not_holds hclaim _ _ hholds
    | some c =>
        obtain ⟨u, f, hholds, howner, hdigest⟩ := h.exists_holds hclaim
        by_cases hsame : c.digest = digest e.content
        · have hcontent : f.content = e.content :=
            hall f (hus hholds.mem) e he (hdigest.symm.trans hsame)
          simp only [if_pos hsame]
          intro reason hobjection
          cases hobjection with
          | reserved h => exact hfree h
          | taken _ hother hne =>
              obtain ⟨-, rfl⟩ := hholds.unique hother
              exact hne hcontent
        · have hcontent : f.content ≠ e.content := fun heq => hsame (hdigest.trans (heq ▸ rfl))
          have hobjection : Objection us e _ := .taken hfree hholds hcontent
          simp only [if_neg hsame, howner]
          exact hobjection

theorem Recorded.resolved (h : Recorded digest claims us) {all : List Entry}
    (hall : TellsApart digest all) (hus : entries us ⊆ all) {u : CompiledUnit}
    (hu : u.entries ⊆ all) :
    match u.entries.findSome? (Archive.clashOf? digest claims) with
    | some clash =>
      Resolved us (.compiled u) (.failed ⟨u.className, .diagnostic clash.message⟩)
    | none => Resolved us (.compiled u) (.compiled u) := by
  cases hclash : u.entries.findSome? (Archive.clashOf? digest claims) with
  | none =>
      refine .kept fun e he => ?_
      have hnone := h.clashOf? hall hus (hu he)
      rwa [List.findSome?_eq_none_iff.mp hclash e he] at hnone
  | some clash =>
      obtain ⟨before, e, after, hentries, he, hbefore⟩ := List.findSome?_eq_some_iff.mp hclash
      have hmem : ∀ f, f ∈ before ++ e :: after → f ∈ all := fun f hf => hu (hentries ▸ hf)
      refine .refused hentries (fun f hf => ?_) ?_
      · have hnone := h.clashOf? hall hus (hmem f (List.mem_append_left _ hf))
        rwa [hbefore f hf] at hnone
      · have hobjection := h.clashOf? hall hus
          (hmem e (List.mem_append_right before List.mem_cons_self))
        rwa [he] at hobjection

theorem greedy_rejectFrom {all : List Entry} (hall : TellsApart digest all) {rs : List UnitResult}
    (h : Recorded digest claims us) (hus : entries us ⊆ all)
    (hrs : ∀ x ∈ rs, ∀ u, x.outcome = .compiled u → u.entries ⊆ all) :
    Greedy us rs (rejectFrom digest claims rs) := by
  induction rs generalizing claims us with
  | nil => exact .nil us
  | cons x rest ih =>
      obtain ⟨index, outcome, duration⟩ := x
      have hrest : ∀ x ∈ rest, ∀ u, x.outcome = .compiled u → u.entries ⊆ all :=
        fun x hx => hrs x (List.mem_cons_of_mem _ hx)
      cases outcome with
      | failed f =>
          refine .cons (.failed f) ?_
          rw [Outcome.unit?, Option.toList_none, List.append_nil]
          exact ih h hus hrest
      | compiled u =>
          have hu : u.entries ⊆ all := hrs _ List.mem_cons_self u rfl
          have hresolved := h.resolved hall hus hu
          cases hclash : u.entries.findSome? (Archive.clashOf? digest claims) with
          | some clash =>
              rw [hclash] at hresolved
              simp only [rejectFrom, hclash]
              refine .cons hresolved ?_
              rw [Outcome.unit?, Option.toList_none, List.append_nil]
              exact ih h hus hrest
          | none =>
              rw [hclash] at hresolved
              simp only [rejectFrom, hclash]
              have hnext : entries (us ++ [u]) ⊆ all := by
                rw [entries_concat]
                exact List.append_subset.mpr ⟨hus, hu⟩
              exact .cons hresolved (ih (h.claim u) hnext hrest)

theorem rejectFrom_rejectFrom (claims : List (Claim δ)) (rs : List UnitResult) :
    rejectFrom digest claims (rejectFrom digest claims rs) = rejectFrom digest claims rs := by
  induction rs generalizing claims with
  | nil => rfl
  | cons x rest ih =>
      cases hx : x.outcome with
      | failed f => simp only [rejectFrom, hx, ih]
      | compiled u =>
          cases hclash : u.entries.findSome? (Archive.clashOf? digest claims) with
          | some clash => simp only [rejectFrom, hx, hclash, ih]
          | none => simp only [rejectFrom, hx, hclash, ih]

/-- Clashes are settled in submission order: a unit stays compiled exactly if nothing is to be said
against its entries beside the units that stayed compiled before it, and fails with the first thing
there is to say otherwise. All else stays as it was, and once settled nothing changes any more. -/
theorem clashes_settled_in_order {rs : List UnitResult} (hdistinct : (rs.map (·.index)).Nodup)
    (hdigest : Distinguishes Sha256.digest rs) :
    (UnitResult.sort rs).Perm rs ∧
    (UnitResult.sort rs).Pairwise (fun x y => x.index < y.index) ∧
    Greedy [] (UnitResult.sort rs) (rejectConflicts rs) ∧
    rejectConflicts (rejectConflicts rs) = rejectConflicts rs := by
  have hperm := UnitResult.sort_perm rs
  refine ⟨hperm, UnitResult.sort_strict hdistinct, ?_, ?_⟩
  · refine greedy_rejectFrom hdigest recorded_nil (List.nil_subset _) fun x hx u hu e he => ?_
    have hunit : u ∈ rs.filterMap (·.outcome.unit?) :=
      List.mem_filterMap.mpr ⟨x, hperm.subset hx, by rw [hu, Outcome.unit?]⟩
    exact List.mem_flatMap.mpr ⟨u, hunit, he⟩
  · have hsorted : UnitResult.Sorted (rejectConflicts rs) := sorted_rejectConflicts rs
    rw [rejectConflicts, rejectConflictsBy, UnitResult.sort_of_sorted hsorted]
    exact rejectFrom_rejectFrom [] _

def contested : List UnitResult :=
  [⟨4, .compiled ⟨"p.E", .java, [⟨"p/E", [1]⟩, ⟨manifestPath, [1]⟩]⟩, 7⟩,
    ⟨0, .compiled ⟨"p.A", .java, [⟨"p/H", [1]⟩]⟩, 5⟩,
    ⟨1, .compiled ⟨"p.B", .scala, [⟨"p/K", [1]⟩, ⟨"p/H", [2]⟩]⟩, 3⟩,
    ⟨2, .failed ⟨"p.C", ⟨.timeout, "late"⟩⟩, 9⟩,
    ⟨3, .compiled ⟨"p.D", .java, [⟨"p/K", [2]⟩, ⟨"p/H", [1]⟩]⟩, 1⟩]

theorem clashes_settled_in_order_contested :
    (contested.map (·.index)).Nodup ∧ Distinguishes Sha256.digest contested ∧
    Greedy [] (UnitResult.sort contested)
      [⟨0, .compiled ⟨"p.A", .java, [⟨"p/H", [1]⟩]⟩, 5⟩,
        ⟨1, .failed ⟨"p.B", ⟨.compileError,
          "archive entry p/H clashes with the one produced by p.A"⟩⟩, 3⟩,
        ⟨2, .failed ⟨"p.C", ⟨.timeout, "late"⟩⟩, 9⟩,
        ⟨3, .compiled ⟨"p.D", .java, [⟨"p/K", [2]⟩, ⟨"p/H", [1]⟩]⟩, 1⟩,
        ⟨4, .failed ⟨"p.E", ⟨.compileError, "archive entry META-INF/MANIFEST.MF is reserved"⟩⟩, 7⟩] := by
  have hdistinct : (contested.map (·.index)).Nodup := by decide
  have hdigest : Distinguishes Sha256.digest contested := by
    unfold Distinguishes
    decide +kernel
  have hperm : contested.Perm (contested.tail ++ [contested.head (by decide)]) := by decide
  have hsort : UnitResult.sort contested = contested.tail ++ [contested.head (by decide)] := by
    rw [UnitResult.sort_eq_of_perm hdistinct hperm]
    exact UnitResult.sort_of_sorted (by unfold UnitResult.Sorted; decide)
  obtain ⟨-, -, hgreedy, -⟩ := clashes_settled_in_order hdistinct hdigest
  refine ⟨hdistinct, hdigest, ?_⟩
  have hreject : rejectConflicts contested = _ := congrArg (rejectFrom Sha256.digest []) hsort
  rw [hreject] at hgreedy
  refine cast (congrArg _ ?_) hgreedy
  decide +kernel

end FunctionJar.Archive
