import FunctionJar.Definition

namespace FunctionJar

namespace Normalized

def readyNames (ns : List Normalized) : List String :=
  (ns.filterMap unit?).map SourceUnit.className

theorem readyNames_cons (n : Normalized) (ns : List Normalized) :
    readyNames (n :: ns) = (n.unit?.map SourceUnit.className).toList ++ readyNames ns := by
  cases n <;> rfl

end Normalized

namespace Definition

theorem map_index_normalizeFrom (ds : List Definition) (index : Nat) (taken : List String) :
    (normalizeFrom index taken ds).map (·.index) = List.range' index ds.length := by
  induction ds generalizing index taken with
  | nil => rfl
  | cons d rest ih =>
      simp only [normalizeFrom, List.map_cons, List.length_cons, List.range'_succ, ih,
        index_normalizeOne]

theorem map_index_normalize (ds : List Definition) :
    (normalize ds).map (·.index) = List.range ds.length := by
  rw [normalize, map_index_normalizeFrom, ← List.range_eq_range']

/-- No definition is normalized with a look at those behind it, and of those in front only the names
of the units count. -/
theorem normalizeFrom_append (ds more : List Definition) (index : Nat) (taken : List String) :
    normalizeFrom index taken (ds ++ more) = normalizeFrom index taken ds ++
      normalizeFrom (index + ds.length)
        ((Normalized.readyNames (normalizeFrom index taken ds)).reverse ++ taken) more := by
  induction ds generalizing index taken with
  | nil => rfl
  | cons d rest ih =>
      have hreverse : ∀ o : Option String, o.toList.reverse = o.toList := by
        intro o
        cases o <;> rfl
      rw [List.cons_append, normalizeFrom, normalizeFrom, Normalized.readyNames_cons, ih,
        List.length_cons, Nat.add_right_comm, Nat.add_assoc, List.cons_append,
        List.reverse_append, hreverse, List.append_assoc]

theorem normalize_append (ds more : List Definition) :
    ∃ ns, normalize (ds ++ more) = normalize ds ++ ns := ⟨_, normalizeFrom_append ds more 0 []⟩

end Definition

namespace Normalized

theorem index_units_sublist (ns : List Normalized) :
    ((ns.filterMap unit?).map (·.index)).Sublist (ns.map (·.index)) := by
  induction ns with
  | nil => simp
  | cons n rest ih =>
      cases n with
      | ready u =>
          simp only [List.filterMap_cons, unit?, List.map_cons, index]
          exact ih.cons_cons _
      | rejected =>
          simp only [List.filterMap_cons, unit?, List.map_cons, index]
          exact ih.cons _

end Normalized

theorem Definition.index_nodup_units (ds : List Definition) :
    (((normalize ds).filterMap Normalized.unit?).map (·.index)).Nodup := by
  have hall : ((normalize ds).map (·.index)).Nodup := by
    rw [map_index_normalize]
    exact List.nodup_range
  exact hall.sublist (Normalized.index_units_sublist _)

end FunctionJar
