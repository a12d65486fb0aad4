import FunctionJar.Proofs.Disk.Descent

namespace FunctionJar

namespace Path

variable {path name : String} {front : List String}

theorem fileName_join {folder : String} (hfolder : folder ≠ "") (hname : ItemName name) :
    fileName (join folder name) = some name := by
  obtain ⟨above, hparts, -⟩ := parts_join hfolder hname.slash
  have hlast : ¬ (isIdle name = true ∨ name = "..") := by
    simp [hname.idle, hname.up]
  cases above with
  | nil =>
      rw [fileName, hparts]
      simp [dropIdle, hlast]
  | cons first mid =>
      rw [fileName, hparts]
      simp [dropIdle_append_name hname.idle, hlast]

end Path

namespace Disk

variable {root : Node} {follow : Bool} {links : Nat} {done parts place up p : List String}
  {content : Text.Bytes} {runs : Bool} {name : String}

theorem Goes.unique (h : Goes root follow links done parts place)
    (h' : Goes root follow links done parts up) : place = up :=
  Except.ok.inj ((walk_iff_goes.mpr h).symm.trans (walk_iff_goes.mpr h'))

theorem Goes.folder (h : Goes root follow links done parts place)
    (hplace : root.see? place = some .empty) : root.see? done = some .empty := by
  cases h with
  | arrive => exact hplace
  | step hstride _ => cases hstride <;> assumption
  | jump hstride _ => cases hstride; assumption

variable {d : Disk} {path : String}

theorem hasNul_append (s t : String) : hasNul (s ++ t) = (hasNul s || hasNul t) := by
  simp [hasNul]

end Disk

end FunctionJar
