import FunctionJar.Text.Utf8

namespace FunctionJar

open Text (Bytes)

inductive Node
  | file (content : Bytes) (runs : Bool)
  | folder (items : List (String × Node))
  | link (target : String)

namespace Node

def empty : Node := folder []

def isFolder : Node → Bool
  | folder _ => true
  | _ => false

def isLink : Node → Bool
  | link _ => true
  | _ => false

def isFile : Node → Bool
  | file .. => true
  | _ => false

/-- A file that may be run as a program, or a folder that may be gone into. -/
def mayRun : Node → Bool
  | file _ runs => runs
  | folder _ => true
  | link _ => false

def isBlank : Node → Bool
  | file content _ => content.isEmpty
  | _ => false

def items : Node → List (String × Node)
  | folder is => is
  | _ => []

def get? : List String → Node → Option Node
  | [], n => some n
  | name :: rest, n => (n.items.lookup name).bind (get? rest)

def putItem (name : String) (n : Node) : List (String × Node) → List (String × Node)
  | [] => [(name, n)]
  | item :: rest => if item.1 = name then (name, n) :: rest else item :: putItem name n rest

/-- The tree with another node at a path. Where a folder on the way is missing nothing changes. -/
def put : List String → Node → Node → Node
  | [], _, new => new
  | [name], folder is, new => folder (putItem name new is)
  | name :: rest, folder is, new =>
    match is.lookup name with
    | some n => folder (putItem name (put rest n new) is)
    | none => folder is
  | _ :: _, n, _ => n

def erase : List String → Node → Node
  | [], n => n
  | [name], folder is => folder (is.filter fun item => item.1 != name)
  | name :: rest, folder is =>
    match is.lookup name with
    | some n => folder (putItem name (erase rest n) is)
    | none => folder is
  | _ :: _, n => n

def names (n : Node) : List String := n.items.map (·.1)

def layered (n below : Node) : Node :=
  folder (n.items ++ below.items.filter fun item => (n.items.lookup item.1).isNone)

end Node

end FunctionJar
