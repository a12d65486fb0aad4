import FunctionJar.Shell.Pattern
import FunctionJar.Shell.Utility.File

namespace FunctionJar.Shell.Utility

inductive Wanted
  | named (pattern : String)
  | at (pattern : String)
  | kind (letter : String)
  | empty
  | deeper (levels : Nat)
  | not (w : Wanted)
  deriving DecidableEq, Repr

/-- A path that was come upon, so many levels below where the search began. -/
structure Found where
  path : String
  depth : Nat
  node : Node

def Wanted.holds (w : Wanted) (f : Found) : Bool :=
  match w with
  | named pattern => matchesPattern (marks false pattern) (baseName f.path).toList
  | .at pattern => matchesPattern (marks false pattern) f.path.toList
  | kind letter =>
    (Text.splitAt ',' letter.toList).any fun
      | ['d'] => f.node.isFolder
      | ['l'] => f.node.isLink
      | ['f'] => f.node.isFile
      | _ => false
  | empty => match f.node with
    | .file content _ => content.isEmpty
    | .folder items => items.isEmpty
    | .link _ => false
  | deeper levels => levels ≤ f.depth
  | not w => !w.holds f

mutual

def foundBelow (path : String) (depth : Nat) : Node → List Found
  | .file content runs => [⟨path, depth, .file content runs⟩]
  | .link target => [⟨path, depth, .link target⟩]
  | .folder items => ⟨path, depth, .folder items⟩ :: foundIn path (depth + 1) items

def foundIn (path : String) (depth : Nat) : List (String × Node) → List Found
  | [] => []
  | (name, n) :: rest => foundBelow (Path.join path name) depth n ++ foundIn path depth rest

end

def wanted : List String → List Wanted
  | "-name" :: pattern :: rest => .named pattern :: wanted rest
  | "-path" :: pattern :: rest => .at pattern :: wanted rest
  | "-type" :: letter :: rest => .kind letter :: wanted rest
  | "-empty" :: rest => .empty :: wanted rest
  | "-mindepth" :: n :: rest => .deeper (natOf n) :: wanted rest
  | "-maxdepth" :: n :: rest => .not (.deeper (natOf n + 1)) :: wanted rest
  | "!" :: rest | "-not" :: rest =>
    match wanted rest with
    | w :: ws => .not w :: ws
    | [] => []
  | _ :: rest => wanted rest
  | [] => []

def deleteFound (p : Process) (found : List Found) : Process :=
  found.reverse.foldl (fun p f =>
    match f.node with
    | .folder _ =>
      match removeEmpty p (p.path f.path) with
      | .ok p => p
      | .error e => p.fail 1 s!"find: cannot delete '{f.path}': {e.text}"
    | _ => (p.edit (.remove (p.path f.path))).toOption.getD p) p

def find (args : List String) (p : Process) : Process :=
  let starts := args.takeWhile fun a => !a.startsWith "-" && a != "!"
  let tests := wanted (args.drop starts.length)
  each p (if starts = [] then ["."] else starts) fun p start =>
    match p.disk.entry (p.path start) with
    | .ok n =>
      let found := (foundBelow start 0 n).filter fun f => tests.all (·.holds f)
      if args.contains "-delete" then deleteFound p found
      else if args.contains "-print0" then
        p.print (found.flatMap fun f => bytesOf f.path ++ [0])
      else printLines p (found.map (·.path))
    | .error e => p.fail 1 s!"find: '{start}': {e.text}"

end FunctionJar.Shell.Utility
