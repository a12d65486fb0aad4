import FunctionJar.Archive.Index
import FunctionJar.Archive.Sha256
import FunctionJar.Report

namespace FunctionJar.Archive

open Text (Bytes)

def isReserved (path : String) : Bool := path == manifestPath || path == indexPath

structure Claim (δ : Type) where
  path : String
  owner : String
  digest : δ
  deriving DecidableEq, Repr

inductive Clash
  | reserved (path : String)
  | taken (path owner : String)
  deriving DecidableEq, Repr

def Clash.message : Clash → String
  | reserved path => s!"archive entry {path} is reserved"
  | taken path owner => s!"archive entry {path} clashes with the one produced by {owner}"

variable {δ : Type} [DecidableEq δ] (digest : Bytes → δ)

def claimOn? (claims : List (Claim δ)) (path : String) : Option (Claim δ) :=
  claims.find? fun c => c.path == path

def clashOf? (claims : List (Claim δ)) (e : Entry) : Option Clash :=
  if isReserved e.path then some (.reserved e.path)
  else match claimOn? claims e.path with
    | some c => if c.digest = digest e.content then none else some (.taken e.path c.owner)
    | none => none

def claim (owner : String) (claims : List (Claim δ)) : List Entry → List (Claim δ)
  | [] => claims
  | e :: rest =>
    if (claimOn? claims e.path).isSome then claim owner claims rest
    else claim owner (claims ++ [⟨e.path, owner, digest e.content⟩]) rest

def rejectFrom (claims : List (Claim δ)) : List UnitResult → List UnitResult
  | [] => []
  | r :: rest =>
    match r.outcome with
    | .failed _ => r :: rejectFrom claims rest
    | .compiled u =>
      match u.entries.findSome? (clashOf? digest claims) with
      | some clash =>
        let failure : UnitFailure := ⟨u.className, .diagnostic clash.message⟩
        { r with outcome := .failed failure } :: rejectFrom claims rest
      | none => r :: rejectFrom (claim digest u.className claims u.entries) rest

def rejectConflictsBy (rs : List UnitResult) : List UnitResult :=
  rejectFrom digest [] (UnitResult.sort rs)

/-- The results in submission order, with the units failed that clash. Contents are compared by
their digests. -/
def rejectConflicts (rs : List UnitResult) : List UnitResult := rejectConflictsBy Sha256.digest rs

end FunctionJar.Archive
