import FunctionJar.Disk.Basic
import FunctionJar.Disk.Fresh

namespace FunctionJar.Archive

open Text (Bytes)

inductive WriteFault
  | os (e : OsError)
  | tooLarge
  deriving DecidableEq, Repr

def WriteFault.message : WriteFault → String
  | os e => e.message
  | tooLarge => "Large file option has not been set"

inductive Action
  | edit (e : Edit)
  | sync
  | readBack (path : String)
  | overflow
  deriving DecidableEq, Repr

def Action.perform (d : Disk) : Action → Except WriteFault Disk
  | edit e => (d.apply e).mapError .os
  | sync => .ok d
  | readBack path => ((d.read path).map fun _ => d).mapError .os
  | overflow => .error .tooLarge

def Action.left (d : Disk) : Action → Disk
  | edit e => d.applied e
  | _ => d

/-- The actions, by their number, that the system refuses although they could be done. -/
abbrev Refusals := Nat → Option OsError

def Refusals.none : Refusals := fun _ => .none

structure Passage where
  disks : List Disk
  last : Disk
  refused : Option WriteFault

namespace Passage

def stay (d : Disk) (refused : Option WriteFault) : Passage := ⟨[], d, refused⟩

def move (d : Disk) (refused : Option WriteFault) : Passage := ⟨[d], d, refused⟩

def followedBy (p q : Passage) : Passage := ⟨p.disks ++ q.disks, q.last, q.refused⟩

/-- A passage that goes on from its last disk, unless it has stopped. -/
def andThen (p : Passage) (next : Disk → Passage) : Passage :=
  match p.refused with
  | some _ => p
  | none => p.followedBy (next p.last)

def orRemove (temp : String) (p : Passage) : Passage :=
  match p.refused with
  | some fault => p.followedBy (.move (p.last.applied (.remove temp)) (some fault))
  | none => p

end Passage

def pass (refusals : Refusals) (n : Nat) (d : Disk) : List Action → Passage
  | [] => .stay d none
  | a :: rest =>
    match refusals n, a.perform d with
    | some e, _ => .stay d (some (.os e))
    | none, .error fault => .move (a.left d) (some fault)
    | none, .ok next => (Passage.move next none).followedBy (pass refusals (n + 1) next rest)

def tempPath (d : Disk) (folder : String) : String :=
  Path.join folder (freshName ".udf-jar-" ".tmp" ((d.list folder).toOption.getD []))

def fill (temp target : String) (pieces : List Bytes) (room : Bool) : List Action :=
  (List.range pieces.length).map (fun n => .edit (.write temp (pieces.take (n + 1)).flatten)) ++
    (if room then [] else [.overflow]) ++ [.sync, .readBack temp, .edit (.rename temp target)]

def replace (refusals : Refusals) (d : Disk) (target : String) (pieces : List Bytes)
    (room : Bool) : Passage :=
  let folder := Path.folder target
  (pass refusals 0 d [.edit (.makeFolders folder)]).andThen fun made =>
    let temp := tempPath made folder
    (pass refusals 1 made [.edit (.write temp [])]).andThen fun opened =>
      (pass refusals 2 opened (fill temp target pieces room)).orRemove temp

end FunctionJar.Archive
