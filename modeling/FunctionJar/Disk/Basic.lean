import FunctionJar.Disk.Node
import FunctionJar.Path

namespace FunctionJar

open Text (Bytes)

inductive OsError
  | notFound
  | tooManyArgs
  | badFormat
  | denied
  | busy
  | taken
  | notDirectory
  | isDirectory
  | invalid
  | nameTooLong
  | notEmpty
  | tooManyLinks
  | nulInPath
  | nulInArgs
  deriving DecidableEq, Repr

namespace OsError

def code? : OsError → Option Nat
  | notFound => some 2
  | tooManyArgs => some 7
  | badFormat => some 8
  | denied => some 13
  | busy => some 16
  | taken => some 17
  | notDirectory => some 20
  | isDirectory => some 21
  | invalid => some 22
  | nameTooLong => some 36
  | notEmpty => some 39
  | tooManyLinks => some 40
  | nulInPath | nulInArgs => none

def text : OsError → String
  | notFound => "No such file or directory"
  | tooManyArgs => "Argument list too long"
  | badFormat => "Exec format error"
  | denied => "Permission denied"
  | busy => "Device or resource busy"
  | taken => "File exists"
  | notDirectory => "Not a directory"
  | isDirectory => "Is a directory"
  | invalid => "Invalid argument"
  | nameTooLong => "File name too long"
  | notEmpty => "Directory not empty"
  | tooManyLinks => "Too many levels of symbolic links"
  | nulInPath => "file name contained an unexpected NUL byte"
  | nulInArgs => "nul byte found in provided data"

def message (e : OsError) : String :=
  match e.code? with
  | some code => s!"{e.text} (os error {code})"
  | none => e.text

end OsError

inductive Edit
  | makeFolders (path : String)
  | makeFolder (path : String)
  | makeLink (path target : String)
  | write (path : String) (content : Bytes)
  | permit (path : String) (runs : Bool)
  | remove (path : String)
  | rename (source target : String)
  deriving DecidableEq, Repr

structure Disk where
  root : Node
  here : List String

namespace Disk

def longestName : Nat := 255

def isLong (name : String) : Bool := longestName < name.utf8ByteSize

def longestPath : Nat := 4095

def hasNul (s : String) : Bool := s.toList.contains '\x00'

/-- The path of names that the parts of a path lead to from `done`. Every node on the way has to
be a folder; the last one may be missing, and is not left for another one unless `follow`. A link
that is left goes on with `jump`. -/
def walkWith (root : Node) (follow : Bool)
    (jump : List String → List String → Except OsError (List String)) (done : List String) :
    List String → Except OsError (List String)
  | [] => .ok done
  | part :: rest =>
    match root.get? done with
    | none => .error .notFound
    | some (.folder _) =>
      if Path.isIdle part then walkWith root follow jump done rest
      else if part = ".." then walkWith root follow jump done.dropLast rest
      else if isLong part then .error .nameTooLong
      else match root.get? (done ++ [part]) with
        | some (.link target) =>
          if rest.isEmpty && !follow then .ok (done ++ [part])
          else jump (if Path.isAbsolute target then [] else done) (Path.parts target ++ rest)
        | _ => walkWith root follow jump (done ++ [part]) rest
    | some _ => .error .notDirectory

def walk (root : Node) (follow : Bool) (links : Nat) (done parts : List String) :
    Except OsError (List String) :=
  match links with
  | 0 => walkWith root follow (fun _ _ => .error .tooManyLinks) done parts
  | links + 1 => walkWith root follow (walk root follow links) done parts

def mostLinks : Nat := 40

def start (d : Disk) (path : String) : List String := if Path.isAbsolute path then [] else d.here

def resolveBy (follow : Bool) (d : Disk) (path : String) : Except OsError (List String) :=
  if path = "" then .error .notFound
  else if hasNul path then .error .nulInPath
  else if longestPath < path.utf8ByteSize then .error .nameTooLong
  else walk d.root follow mostLinks (d.start path) (Path.parts path)

def resolve (d : Disk) (path : String) : Except OsError (List String) := d.resolveBy true path

/-- Where a path leads to if a link at its end is what is meant. -/
def place (d : Disk) (path : String) : Except OsError (List String) := d.resolveBy false path

def nodeAt (d : Disk) (path : List String) : Except OsError Node :=
  match d.root.get? path with
  | some n => .ok n
  | none => .error .notFound

def node (d : Disk) (path : String) : Except OsError Node := do d.nodeAt (← d.resolve path)

def entry (d : Disk) (path : String) : Except OsError Node := do d.nodeAt (← d.place path)

def has (d : Disk) (path : String) : Bool := (d.node path).isOk

def isFolder (d : Disk) (path : String) : Bool :=
  match d.node path with
  | .ok n => n.isFolder
  | .error _ => false

def read (d : Disk) (path : String) : Except OsError Bytes := do
  match ← d.node path with
  | .file content _ => return content
  | .folder _ => throw .isDirectory
  | .link _ => throw .tooManyLinks

def list (d : Disk) (path : String) : Except OsError (List String) := do
  match ← d.node path with
  | .folder items => return items.map (·.1)
  | _ => throw .notDirectory

def withRoot (d : Disk) (root : Node) : Disk := { d with root := root }

def makeFolder (d : Disk) (path : String) : Except OsError Disk := do
  let target ← d.place (Path.bare path)
  if (d.root.get? target).isSome then throw .taken
  return d.withRoot (d.root.put target .empty)

def haveFolder (d : Disk) (path : String) : Except OsError Disk :=
  match d.makeFolder path with
  | .error .taken => if d.isFolder path then .ok d else .error .taken
  | outcome => outcome

/-- The folder at the first path, and before it those at the others as far as they are missing.
What could be made stays even if the first one cannot be. -/
def makeChain (d : Disk) : List String → Disk × Option OsError
  | [] => (d, none)
  | path :: above =>
    match d.haveFolder path with
    | .ok made => (made, none)
    | .error .notFound =>
      match makeChain d above with
      | (d, some e) => (d, some e)
      | (d, none) =>
        match d.haveFolder path with
        | .ok made => (made, none)
        | .error e => (d, some e)
    | .error e => (d, some e)

def makeFolders (d : Disk) (path : String) : Disk × Option OsError :=
  d.makeChain (Path.ancestors path)

def makeLink (d : Disk) (path target : String) : Except OsError Disk := do
  if target = "" then throw .notFound
  let place ← d.place path
  if (d.root.get? place).isSome then throw .taken
  return d.withRoot (d.root.put place (.link target))

def write (d : Disk) (path : String) (content : Bytes) : Except OsError Disk := do
  let target ← d.resolve (Path.bare path)
  if path.endsWith "/" then throw .isDirectory
  match d.root.get? target with
  | some (.folder _) => throw .isDirectory
  | some (.file _ runs) => return d.withRoot (d.root.put target (.file content runs))
  | _ => return d.withRoot (d.root.put target (.file content false))

def permit (d : Disk) (path : String) (runs : Bool) : Except OsError Disk := do
  let target ← d.resolve path
  match ← d.nodeAt target with
  | .file content _ => return d.withRoot (d.root.put target (.file content runs))
  | _ => return d

def remove (d : Disk) (path : String) : Except OsError Disk := do
  let target ← d.place path
  if (d.root.get? target).isNone then throw .notFound
  return d.withRoot (d.root.erase target)

/-- A node under a new name, in place of what is there. Only a name can be given to it. -/
def rename (d : Disk) (source target : String) : Except OsError Disk := do
  if hasNul target then throw .invalid
  let old ← d.place source
  let new ← d.place (Path.bare target)
  if !Path.endsInName target then throw .busy
  let n ← d.nodeAt old
  if target.endsWith "/" ∧ !n.isFolder then throw .notDirectory
  let there := d.root.get? new
  if n.isFolder ∧ old ≠ new ∧ old.isPrefixOf new then throw .invalid
  if !n.isFolder ∧ there.any Node.isFolder then throw .isDirectory
  if n.isFolder ∧ there.any (!·.isFolder) then throw .notDirectory
  if n.isFolder ∧ old ≠ new ∧ there.any (!·.names.isEmpty) then throw .notEmpty
  return d.withRoot ((d.root.erase old).put new n)

def apply (d : Disk) : Edit → Except OsError Disk
  | .makeFolders path =>
    match d.makeFolders path with
    | (d, none) => .ok d
    | (_, some e) => .error e
  | .makeFolder path => d.makeFolder path
  | .makeLink path target => d.makeLink path target
  | .write path content => d.write path content
  | .permit path runs => d.permit path runs
  | .remove path => d.remove path
  | .rename source target => d.rename source target

/-- The disk after an edit, as far as it could be done. -/
def applied (d : Disk) (e : Edit) : Disk :=
  match e with
  | .makeFolders path => (d.makeFolders path).1
  | e => (d.apply e).toOption.getD d

end Disk

end FunctionJar
