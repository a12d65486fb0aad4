import FunctionJar.Shell.Utility.File

namespace FunctionJar.Shell.Utility

open Text (Bytes)

structure Transfer where
  sources : List String
  target : String
  isExact : Bool

def Transfer.landing (t : Transfer) (p : Process) (source : String) : String :=
  if !t.isExact && p.disk.isFolder (p.path t.target) then Path.join t.target (baseName source)
  else t.target

/-- Reads the operands of a transfer, or says what is missing. A single source may be enough. -/
def transfer? (name : String) (alone : Bool) (g : Given) (p : Process) :
    Except Process Transfer :=
  let isFolder (target : String) : Bool := p.disk.isFolder (p.path target)
  match g.value? 't', g.operands.reverse with
  | _, [] => .error (missing p name "file operand")
  | some folder, _ =>
    if isFolder folder then .ok ⟨g.operands, folder, false⟩
    else
      let e := if p.disk.has (p.path folder) then OsError.notDirectory else .notFound
      .error (p.fail 1 s!"{name}: target directory {quotedText folder}: {e.text}")
  | none, [source] =>
    if alone ∧ !g.has 'T' then .ok ⟨[source], ".", false⟩
    else .error (missing p name s!"destination file operand after {quotedText source}")
  | none, target :: sources =>
    if g.has 'T' ∧ 1 < sources.length then
      .error (extra p name ((g.operands[2]?).getD target))
    else if 1 < sources.length ∧ !isFolder target then
      let e := if p.disk.has (p.path target) then OsError.notDirectory else .notFound
      .error (p.fail 1 s!"{name}: target {quotedText target}: {e.text}")
    else .ok ⟨sources.reverse, target, g.has 'T'⟩

def transferring (u : Usage) (alone : Bool) (args : List String) (p : Process)
    (one : Given → Transfer → Process → String → Process) : Process :=
  u.run args p fun g =>
    match transfer? u.name alone g p with
    | .error p => p
    | .ok t => each p t.sources (one g t)

def Given.tell (g : Given) (p : Process) (text : String) : Process :=
  if g.has 'v' then p.printLine text else p

mutual

def makeEdits (path : String) : Node → List Edit
  | .file content runs => .write path content :: if runs then [.permit path true] else []
  | .folder items => .makeFolders path :: makeEditsIn path items
  | .link target => [.makeLink path target]

def makeEditsIn (path : String) : List (String × Node) → List Edit
  | [] => []
  | (name, n) :: rest => makeEdits (Path.join path name) n ++ makeEditsIn path rest

end

def makeNode (path : String) (n : Node) (p : Process) : Except OsError Process :=
  (makeEdits path n).foldlM (fun p e => p.edit e) p

def areSame (p : Process) (a b : String) : Bool :=
  match p.disk.resolve (p.path a), p.disk.resolve (p.path b) with
  | .ok x, .ok y => x == y && p.disk.has (p.path a)
  | _, _ => false

def cpOne (g : Given) (t : Transfer) (p : Process) (source : String) : Process :=
  let deep := g.hasAny "rRa"
  let keepsLinks := (deep || g.hasAny "dP") && !g.has 'L'
  let node := if keepsLinks then p.disk.entry (p.path source) else p.disk.node (p.path source)
  let goal := t.landing p source
  let name := quotedText source
  let place := quotedText goal
  let there := p.disk.entry (p.path goal)
  let copy (n : Node) : Process :=
    match makeNode (p.path goal) n p with
    | .ok p => g.tell p s!"{name} -> {place}"
    | .error e =>
      let e := if e = .isDirectory ∧ goal.endsWith "/" then .notDirectory else e
      let what := if n.isFolder then "directory" else if n.isLink then "symbolic link"
        else "regular file"
      p.fail 1 s!"cp: cannot create {what} {place}: {e.text}"
  match node with
  | .error e => p.fail 1 s!"cp: cannot stat {name}: {e.text}"
  | .ok n =>
    if n.isFolder ∧ !deep then p.fail 1 s!"cp: -r not specified; omitting directory {name}"
    else if g.has 'n' ∧ there.isOk then p
    else if areSame p source goal then p.fail 1 s!"cp: {name} and {place} are the same file"
    else match there with
      | .ok (.folder _) =>
        if n.isFolder then copy n
        else p.fail 1 s!"cp: cannot overwrite directory {place} with non-directory {name}"
      | .ok (.link _) =>
        if !p.disk.has (p.path goal) then
          p.fail 1 s!"cp: not writing through dangling symlink {place}"
        else copy n
      | .ok (.file ..) =>
        if n.isFolder then
          p.fail 1 s!"cp: cannot overwrite non-directory {place} with directory {name}"
        else copy n
      | .error _ => copy n

def transferLong : List (String × Char) :=
  [("archive", 'a'), ("force", 'f'), ("interactive", 'i'), ("link", 'l'), ("dereference", 'L'),
    ("no-clobber", 'n'), ("no-dereference", 'P'), ("recursive", 'r'), ("symbolic", 's'),
    ("symbolic-link", 's'), ("target-directory", 't'), ("no-target-directory", 'T'),
    ("update", 'u'), ("verbose", 'v'), ("one-file-system", 'x'), ("suffix", 'S'),
    ("strip-trailing-slashes", 'w'), ("preserve", 'k'), ("backup", 'q')]

def transferUsage (name flags : String) : Usage :=
  { Usage.plain name flags "tS" transferLong with optional := "kq" }

def cp (args : List String) (p : Process) : Process :=
  transferring (transferUsage "cp" "abdfHilLnPpRrsTuvxZ") false args p cpOne

def mvOne (g : Given) (t : Transfer) (p : Process) (source : String) : Process :=
  let goal := t.landing p source
  let from' := p.path source
  let name := quotedText source
  let place := quotedText goal
  match p.disk.entry from' with
  | .error e => p.fail 1 s!"mv: cannot stat {name}: {e.text}"
  | .ok n =>
    let there := p.disk.entry (p.path goal)
    if g.has 'n' ∧ there.isOk then p.fail 1 s!"mv: not replacing {place}"
    else if (p.disk.place from').toOption = (p.disk.place (p.path goal)).toOption then
      p.fail 1 s!"mv: {name} and {place} are the same file"
    else match p.edit (.rename from' (p.path goal)) with
      | .ok p => g.tell p s!"renamed {name} -> {place}"
      | .error .invalid =>
        p.fail 1 s!"mv: cannot move {name} to a subdirectory of itself, {place}"
      | .error .notEmpty => p.fail 1 s!"mv: cannot overwrite {place}: {OsError.notEmpty.text}"
      | .error e =>
        if n.isFolder ∧ there.toOption.any (!·.isFolder) then
          p.fail 1 s!"mv: cannot overwrite non-directory {place} with directory {name}"
        else if !n.isFolder ∧ there.toOption.any Node.isFolder then
          p.fail 1 s!"mv: cannot overwrite directory {place} with non-directory {name}"
        else p.fail 1 s!"mv: cannot move {name} to {place}: {e.text}"

def mv (args : List String) (p : Process) : Process :=
  transferring (transferUsage "mv" "bfinTuvZ") false args p mvOne

/-- A symbolic link keeps the text of the source. Any other link has the content that the source
has now; no later change of it is seen. -/
def lnOne (g : Given) (t : Transfer) (p : Process) (source : String) : Process :=
  let isLinkThere := ((p.disk.entry (p.path t.target)).toOption.map Node.isLink).getD false
  let t := { t with isExact := t.isExact || (g.has 'n' && isLinkThere) }
  let goal := t.landing p source
  let path := p.path goal
  let isSoft := g.has 's'
  let name := quotedText source
  let place := quotedText goal
  let refuse (p : Process) (e : OsError) : Process :=
    let kind := if isSoft then "symbolic" else "hard"
    let arrow := match isSoft, e with
      | true, .nameTooLong => s!" -> {name}"
      | true, _ => if source = "" then s!" -> {name}" else ""
      | false, .taken => ""
      | false, _ => s!" => {name}"
    p.fail 1 s!"ln: failed to create {kind} link {place}{arrow}: {e.text}"
  let cleared := if g.has 'f' then (p.edit (.remove path)).toOption.getD p else p
  let told (p : Process) : Process := g.tell p (place ++ (if isSoft then " -> " else " => ") ++ name)
  let link (n : Node) : Process :=
    match p.disk.entry path with
    | .ok there =>
      if !g.has 'f' then refuse p .taken
      else if there.isFolder then p.fail 1 s!"ln: {shownText goal}: cannot overwrite directory"
      else match makeNode path n cleared with
        | .ok p => told p
        | .error e => refuse p e
    | .error _ =>
      match makeNode path n p with
      | .ok p => told p
      | .error e => refuse p e
  if isSoft then link (.link source)
  else match p.disk.entry (p.path source) with
    | .error e => p.fail 1 s!"ln: failed to access {name}: {e.text}"
    | .ok n =>
      if n.isFolder then p.fail 1 s!"ln: {shownText source}: hard link not allowed for directory"
      else if g.has 'f' ∧ areSame p source goal then
        p.fail 1 s!"ln: {name} and {place} are the same file"
      else link n

def ln (args : List String) (p : Process) : Process :=
  transferring (transferUsage "ln" "bdFfiLnPrsTv") true args p lnOne

def canonical? (p : Process) (operand : String) : Except OsError String :=
  (p.disk.resolve (p.path operand)).map fun names => "/" ++ Text.join "/" names

def linkLong : List (String × Char) :=
  [("canonicalize", 'f'), ("canonicalize-existing", 'e'), ("canonicalize-missing", 'm'),
    ("no-newline", 'n'), ("quiet", 'q'), ("silent", 's'), ("verbose", 'v'), ("zero", 'z'),
    ("strip", 's'), ("no-symlinks", 's'), ("logical", 'L'), ("physical", 'P'),
    ("relative-to", 'R'), ("relative-base", 'B')]

/-- The path without links that an operand leads to; what is asked for decides whether all of it has
to be there. -/
def Given.canonical? (g : Given) (p : Process) (operand : String) : Except OsError String :=
  let full := p.path operand
  match g.last? "fems" with
  | some 'e' => do
    let _ ← p.disk.node full
    Utility.canonical? p operand
  | some 'm' => .ok ((Utility.canonical? p operand).toOption.getD (Path.normal full))
  | some 's' => .ok (Path.normal full)
  | _ => Utility.canonical? p operand

def readlink (args : List String) (p : Process) : Process :=
  (Usage.plain "readlink" "femnqsvz" "" linkLong).run args p fun g =>
    let found (p : Process) (operand : String) : Except OsError String :=
      if g.hasAny "fem" then g.canonical? p operand
      else do
        match ← p.disk.entry (p.path operand) with
        | .link target => return target
        | _ => throw .invalid
    let ending : Bytes := if g.has 'z' then [0]
      else if g.has 'n' && g.operands.length == 1 then [] else [10]
    if g.operands = [] then missing p "readlink" "operand"
    else each p g.operands fun p operand =>
      match found p operand with
      | .ok path => p.print (bytesOf path ++ ending)
      | .error e =>
        if g.has 'v' then p.fail 1 s!"readlink: {shownText operand}: {e.text}" else p.withStatus 1

def realpath (args : List String) (p : Process) : Process :=
  (Usage.plain "realpath" "eLmPqsz" "RB" linkLong).run args p fun g =>
    if g.operands = [] then missing p "realpath" "operand"
    else each p g.operands fun p operand =>
      match g.canonical? p operand with
      | .ok path => p.print (bytesOf path ++ [if g.has 'z' then 0 else 10])
      | .error e =>
        if g.has 'q' then p.withStatus 1
        else p.fail 1 s!"realpath: {shownText operand}: {e.text}"

end FunctionJar.Shell.Utility
