import FunctionJar.Compiled

namespace FunctionJar

structure UnitFailure where
  className : String
  failure : Failure
  deriving DecidableEq, Repr

inductive Outcome
  | compiled (u : CompiledUnit)
  | failed (f : UnitFailure)
  deriving DecidableEq, Repr

namespace Outcome

def className : Outcome → String
  | compiled u => u.className
  | failed f => f.className

def isCompiled : Outcome → Bool
  | compiled _ => true
  | failed _ => false

def unit? : Outcome → Option CompiledUnit
  | compiled u => some u
  | failed _ => none

def failure? : Outcome → Option UnitFailure
  | compiled _ => none
  | failed f => some f

end Outcome

structure UnitResult where
  index : Nat
  outcome : Outcome
  duration : Nat
  deriving DecidableEq, Repr

def UnitResult.sort (rs : List UnitResult) : List UnitResult :=
  rs.mergeSort fun r s => r.index ≤ s.index

structure Report where
  success : List String
  failed : List String
  deriving DecidableEq, Repr

def Report.total (r : Report) : Nat := r.success.length + r.failed.length

structure Aggregate where
  report : Report
  failures : List UnitFailure
  units : List CompiledUnit
  deriving DecidableEq, Repr

/-- Splits results into what compiled and what failed, both in submission order. -/
def aggregate (rs : List UnitResult) : Aggregate :=
  let outcomes := (UnitResult.sort rs).map (·.outcome)
  let units := outcomes.filterMap Outcome.unit?
  let failures := outcomes.filterMap Outcome.failure?
  ⟨⟨units.map (·.className), failures.map (·.className)⟩, failures, units⟩

/-- Two lists of names with their lengths, behind a line on where the archive is. -/
def Report.summary (r : Report) (path : String) (isWritten : Bool) : String :=
  let place :=
    if isWritten then "udf jar written to " ++ path
    else "no class compiled, udf jar at " ++ path ++ " left unchanged"
  let names (ns : List String) : String := s!"({ns.length}): [" ++ Text.join ", " ns ++ "]"
  place ++ ";\nsucceeded " ++ names r.success ++ "\nfailed " ++ names r.failed

end FunctionJar
