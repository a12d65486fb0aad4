import FunctionJar.Text.Blank

namespace FunctionJar.Path

def parts (path : String) : List String := (Text.splitAt '/' path.toList).map String.ofList

def isAbsolute (path : String) : Bool := path.startsWith "/"

def join (base path : String) : String :=
  if isAbsolute path then path
  else if base = "" then path
  else if base.endsWith "/" then base ++ path
  else base ++ "/" ++ path

def isIdle (part : String) : Bool := part == "" || part == "."

def dropIdle (ps : List String) : List String := (ps.reverse.dropWhile isIdle).reverse

def ofParts : List String → String
  | [""] => "/"
  | ps => Text.join "/" ps

def parent (path : String) : Option String :=
  match parts path with
  | [] => none
  | first :: rest =>
    match dropIdle rest with
    | [] => if first = "" then none else some ""
    | rest => some (ofParts (first :: dropIdle rest.dropLast))

def ancestorsFrom : Nat → String → List String
  | 0, _ => []
  | fuel + 1, path =>
    match parent path with
    | none => []
    | some above => path :: ancestorsFrom fuel above

/-- A path and the folders above it, none of them the root or empty. Each has a part less. -/
def ancestors (path : String) : List String := ancestorsFrom (parts path).length path

def bare (path : String) : String :=
  let kept := (path.toList.reverse.dropWhile (· == '/')).reverse
  if kept = [] then path else String.ofList kept

/-- An absolute path without idle parts, where two dots take the part before them back. -/
def normal (path : String) : String :=
  let step (done : List String) (part : String) : List String :=
    if isIdle part then done else if part = ".." then done.dropLast else done ++ [part]
  "/" ++ Text.join "/" ((parts path).foldl step [])

def endsInName (path : String) : Bool :=
  match (parts (bare path)).getLast? with
  | none => false
  | some last => !isIdle last && last != ".."

def fileName (path : String) : Option String :=
  match parts path with
  | [] => none
  | first :: rest =>
    let last := (dropIdle rest).getLast?.getD first
    if isIdle last ∨ last = ".." then none else some last

def folder (path : String) : String :=
  match parent path with
  | none | some "" => "."
  | some p => p

end FunctionJar.Path
