import FunctionJar.Disk.Basic
import FunctionJar.Log

namespace FunctionJar

inductive Step
  | edit (e : Edit)
  | sleep (ms : Nat)
  | note (event : Log.Event)

def Step.duration : List Step → Nat
  | [] => 0
  | .sleep ms :: rest => ms + duration rest
  | _ :: rest => duration rest

/-- The steps so far, the last one first, and the disk as they leave it. -/
structure Trace where
  disk : Disk
  reversed : List Step

namespace Trace

def start (d : Disk) : Trace := ⟨d, []⟩

def steps (t : Trace) : List Step := t.reversed.reverse

def edit (t : Trace) (e : Edit) : Except OsError Trace := do
  return ⟨← t.disk.apply e, .edit e :: t.reversed⟩

def sleep (t : Trace) (ms : Nat) : Trace := { t with reversed := .sleep ms :: t.reversed }

def note (t : Trace) (event : Log.Event) : Trace := { t with reversed := .note event :: t.reversed }

end Trace

end FunctionJar
