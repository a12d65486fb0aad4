import FunctionJar.Shell.Utility.Operand

namespace FunctionJar.Shell.Utility

open Text (Bytes)

def missing (p : Process) (name what : String) : Process :=
  p.fail 1 s!"{name}: missing {what}\nTry '{name} --help' for more information."

def extra (p : Process) (name operand : String) : Process :=
  p.fail 1 s!"{name}: extra operand {quotedText operand}\nTry '{name} --help' for more information."

/-- What a letter or a number says about running, if it says anything: one part of a mode. -/
def permits? (mode : List Char) : Option (Option Bool) :=
  if mode ≠ [] ∧ mode.length ≤ 5 ∧ mode.all fun c => '0' ≤ c && c ≤ '7' then
    if 0o7777 < mode.foldl (fun n c => n * 8 + (c.toNat - 48)) 0 then none
    else some (some ((mode.reverse.take 3).any fun c => c.toNat % 2 == 1))
  else
    let who := mode.takeWhile fun c => "ugoa".toList.contains c
    match mode.drop who.length with
    | sign :: letters =>
      if !"+-=".toList.contains sign || letters.any fun c => !"rwxXst".toList.contains c then none
      else
        let isAll := who == [] || who.contains 'a'
        let runs := letters.contains 'x'
        match sign with
        | '+' => some (if runs then some true else none)
        | '-' => some (if runs && isAll then some false else none)
        | _ => some (if runs then some true else if isAll then some false else none)
    | [] => none

/-- What the parts of a mode say about running, or nothing for a text that is no mode. -/
def mode? (mode : String) : Option (List (Option Bool)) :=
  (Text.splitAt ',' mode.toList).mapM permits?

def missingFolders (p : Process) (path : String) : List String :=
  ((Path.ancestors (Path.bare path)).filter fun a => !p.disk.has (p.path a)).reverse

def obstacle? (p : Process) (path : String) : Option String :=
  (Path.ancestors (Path.bare path)).reverse.find? fun a =>
    (p.disk.node (p.path a)).toOption.any fun n => !n.isFolder

def mkdirOne (g : Given) (p : Process) (operand : String) : Process :=
  let path := p.path operand
  let made := if g.has 'p' then missingFolders p operand else [operand]
  match if operand = "" then .error .notFound
    else p.edit (if g.has 'p' then .makeFolders path else .makeFolder path) with
  | .ok p =>
    if g.has 'v' then
      made.foldl (fun p m => p.printLine s!"mkdir: created directory {quotedText m}") p
    else p
  | .error e =>
    let blamed := if g.has 'p' ∧ e = .notDirectory then (obstacle? p operand).getD operand
      else operand
    p.fail 1 s!"mkdir: cannot create directory {quotedText blamed}: {e.text}"

def mkdir (args : List String) (p : Process) : Process :=
  (Usage.plain "mkdir" "pvZ" "m" [("mode", 'm'), ("parents", 'p'), ("verbose", 'v')]).run args p
    fun g =>
      let bad := (g.value? 'm').filter fun mode => (mode? mode).isNone
      match g.operands, bad with
      | [], _ => missing p "mkdir" "operand"
      | _, some mode => p.fail 1 s!"mkdir: invalid mode {quotedText mode}"
      | operands, none => each p operands (mkdirOne g)

def removeEmpty (p : Process) (path : String) : Except OsError Process := do
  match ← p.disk.entry path with
  | .folder items =>
    let last := (Path.parts (Path.bare path)).getLastD ""
    if last = "." then throw .invalid
    if Path.bare path = "/" then throw .busy
    if items ≠ [] ∨ last = ".." then throw .notEmpty
    p.edit (.remove path)
  | _ => throw .notDirectory

def rmdirChain (g : Given) : List String → Process → Process
  | [], p => p
  | path :: above, p =>
    let p := if g.has 'v' then p.printLine s!"rmdir: removing directory, {quotedText path}" else p
    match removeEmpty p (Path.join p.folder path) with
    | .ok p => rmdirChain g above p
    | .error e =>
      if g.has 'i' ∧ e = .notEmpty then p
      else p.fail 1 s!"rmdir: failed to remove directory {quotedText path}: {e.text}"

def rmdirOne (g : Given) (p : Process) (operand : String) : Process :=
  let p := if g.has 'v' then p.printLine s!"rmdir: removing directory, {quotedText operand}" else p
  let above := (Path.ancestors (Path.bare operand)).drop 1
  match removeEmpty p (p.path operand) with
  | .ok p => if g.has 'p' then rmdirChain g above p else p
  | .error e =>
    if g.has 'i' ∧ e = .notEmpty then p
    else p.fail 1 s!"rmdir: failed to remove {quotedText operand}: {e.text}"

def rmdir (args : List String) (p : Process) : Process :=
  let long := [("ignore-fail-on-non-empty", 'i'), ("parents", 'p'), ("verbose", 'v')]
  (Usage.plain "rmdir" "pv" "" long).run args p fun g =>
    if g.operands = [] then missing p "rmdir" "operand" else each p g.operands (rmdirOne g)

def asks (p : Process) (question : String) : Process × Bool :=
  let p := p.emit p.streams.err (bytesOf question)
  let answer := p.input.takeWhile (· != 10)
  let isYes := answer.head? = some 121 || answer.head? = some 89
  (p.withInput (p.input.drop (answer.length + 1)), isYes)

mutual

/-- What is said of all that is removed with a node, what lies in a folder before the folder. -/
def removedLines (path : String) : Node → List String
  | .folder items => removedIn path items ++ [s!"removed directory {quotedText path}"]
  | _ => [s!"removed {quotedText path}"]

def removedIn (path : String) : List (String × Node) → List String
  | [] => []
  | (name, n) :: rest => removedLines (Path.join path name) n ++ removedIn path rest

end

def rmOne (g : Given) (p : Process) (operand : String) : Process :=
  let path := p.path operand
  let deep := g.hasAny "rR"
  let name := quotedText operand
  let prompt (n : Node) : String :=
    let what := if n.isFolder then "directory" else if n.isLink then "symbolic link"
      else if n.isBlank then "regular empty file" else "regular file"
    s!"rm: remove {what} {name}? "
  let remove (n : Node) : Except OsError Process := do
    let (p, allowed) := if g.last? "if" = some 'i' then asks p (prompt n) else (p, true)
    if !allowed then return p
    let after ← match n with
      | .folder _ =>
        if deep then p.edit (.remove path)
        else if g.has 'd' then removeEmpty p path
        else throw .isDirectory
      | _ => if operand.endsWith "/" then throw .notDirectory else p.edit (.remove path)
    return if g.has 'v' then printLines after (removedLines operand n) else after
  let isForced (e : OsError) : Bool :=
    g.has 'f' && (e == .notFound || e == .notDirectory && !operand.endsWith "/")
  let last := (Path.parts (Path.bare operand)).getLastD ""
  if deep ∧ (last = "." ∨ last = "..") then
    p.fail 1 s!"rm: refusing to remove '.' or '..' directory: skipping {name}"
  else if deep ∧ Path.bare operand = "/" then
    p.fail 1 (s!"rm: it is dangerous to operate recursively on {name}\n" ++
      "rm: use --no-preserve-root to override this failsafe")
  else
    match p.disk.entry path >>= remove with
    | .ok p => p
    | .error e => if isForced e then p else p.fail 1 s!"rm: cannot remove {name}: {e.text}"

def rm (args : List String) (p : Process) : Process :=
  let long := [("force", 'f'), ("recursive", 'r'), ("dir", 'd'), ("verbose", 'v'),
    ("one-file-system", 'o'), ("no-preserve-root", 'n'), ("preserve-root", 'p'),
    ("interactive", 'w')]
  ({ Usage.plain "rm" "dfirRIv" "" long with optional := "w" }).run args p fun g =>
    if g.operands = [] ∧ !g.has 'f' then missing p "rm" "operand" else each p g.operands (rmOne g)

def unlink (args : List String) (p : Process) : Process :=
  (Usage.plain "unlink" "" "" []).run args p fun g =>
    match g.operands with
    | [] => missing p "unlink" "operand"
    | [operand] =>
      let path := p.path operand
      let outcome : Except OsError Process := do
        if (← p.disk.entry path).isFolder then throw .isDirectory
        p.edit (.remove path)
      match outcome with
      | .ok p => p.withStatus 0
      | .error e => p.fail 1 s!"unlink: cannot unlink {quotedText operand}: {e.text}"
    | _ :: operand :: _ => extra p "unlink" operand

def isTime (s : String) : Bool :=
  match s.toList with
  | [] => true
  | c :: _ => c.isDigit || "@+-".toList.contains c ||
    ["now", "today", "yesterday", "tomorrow", "noon", "midnight"].contains (Text.lower s)

def touchOne (g : Given) (p : Process) (operand : String) : Process :=
  let path := p.path operand
  let name := quotedText operand
  if operand = "-" ∨ (p.disk.has path ∧ !(operand.endsWith "/" ∧ !p.disk.isFolder path)) then p
  else if operand.endsWith "/" then
    p.fail 1 s!"touch: setting times of {name}: {OsError.notFound.text}"
  else if g.hasAny "ch" then p
  else match p.edit (.write path []) with
    | .ok p => p
    | .error e => p.fail 1 s!"touch: cannot touch {name}: {e.text}"

def touch (args : List String) (p : Process) : Process :=
  let long := [("no-create", 'c'), ("date", 'd'), ("no-dereference", 'h'), ("reference", 'r'),
    ("time", 'T')]
  (Usage.plain "touch" "acfhm" "drtT" long).run args p fun g =>
    let isStamp (s : String) : Bool :=
      8 ≤ s.length && s.toList.all fun c => c.isDigit || c == '.'
    let bad := (g.values 'd').filter (fun d => !isTime d) ++
      (g.values 't').filter fun t => !isStamp t
    let model := (g.value? 'r').filter fun r => !p.disk.has (p.path r)
    match bad, model, g.operands with
    | date :: _, _, _ => p.fail 1 s!"touch: invalid date format {quotedText date}"
    | [], some model, _ =>
      p.fail 1
        s!"touch: failed to get attributes of {quotedText model}: {OsError.notFound.text}"
    | [], none, [] => missing p "touch" "file operand"
    | [], none, operands => each p operands (touchOne g)

def mkfifo (args : List String) (p : Process) : Process :=
  (Usage.plain "mkfifo" "Z" "m" [("mode", 'm')]).run args p fun g =>
    if ((g.value? 'm').map mode?) = some none then p.fail 1 "mkfifo: invalid mode"
    else if g.operands = [] then missing p "mkfifo" "operand"
    else each p g.operands fun p operand =>
      let path := p.path operand
      match if (p.disk.entry path).isOk then .error .taken else p.edit (.write path []) with
      | .ok p => p
      | .error e => p.fail 1 s!"mkfifo: cannot create fifo {quotedText operand}: {e.text}"

def baseName (path : String) : String :=
  match (Path.parts path).reverse.dropWhile (· == "") with
  | [] => "/"
  | name :: _ => name

def cutEnding (ending name : String) : String :=
  if name.endsWith ending ∧ name ≠ ending then (name.dropEnd ending.length).toString else name

def basename (args : List String) (p : Process) : Process :=
  let long := [("multiple", 'a'), ("suffix", 's'), ("zero", 'z')]
  ({ Usage.plain "basename" "az" "s" long with inOrder := true }).run args p fun g =>
    let name (path : String) : String := if path = "" then "" else baseName path
    let put (p : Process) (name : String) : Process :=
      p.print (bytesOf name ++ [if g.has 'z' then 0 else 10])
    match g.hasAny "as", g.operands with
    | _, [] => missing p "basename" "operand"
    | true, operands =>
      each p operands fun p path => put p (cutEnding ((g.value? 's').getD "") (name path))
    | false, [path] => (put p (name path)).withStatus 0
    | false, [path, ending] => (put p (cutEnding ending (name path))).withStatus 0
    | false, _ :: _ :: operand :: _ => extra p "basename" operand

def dirName (path : String) : String :=
  let rest := (Path.parts path).reverse.dropWhile (· == "")
  match (rest.drop 1).dropWhile (· == "") with
  | [] => if Path.isAbsolute path then "/" else "."
  | parts => Text.join "/" parts.reverse

def dirname (args : List String) (p : Process) : Process :=
  (Usage.plain "dirname" "z" "" [("zero", 'z')]).run args p fun g =>
    if g.operands = [] then missing p "dirname" "operand"
    else each p g.operands fun p path =>
      p.print (bytesOf (dirName path) ++ [if g.has 'z' then 0 else 10])

def chmodOne (g : Given) (parts : List (Option Bool)) (p : Process) (operand : String) : Process :=
  let path := p.path operand
  let name := quotedText operand
  match p.disk.node path with
  | .ok _ =>
    match (parts.filterMap id).getLast? with
    | some runs => (p.edit (.permit path runs)).toOption.getD p
    | none => p
  | .error e =>
    if g.has 'f' then p.withStatus 1
    else if (p.disk.entry path).isOk then
      p.fail 1 s!"chmod: cannot operate on dangling symlink {name}"
    else p.fail 1 s!"chmod: cannot access {name}: {e.text}"

/-- Of what a mode allows only running is kept. A mode may look like an option. -/
def chmod (args : List String) (p : Process) : Process :=
  let long := [("changes", 'c'), ("quiet", 'f'), ("silent", 'f'), ("recursive", 'R'),
    ("reference", 'M'), ("verbose", 'v')]
  let isMode (arg : String) : Bool := arg.startsWith "-" && arg != "-" && (mode? arg).isSome
  let taken := args.findIdx? isMode
  let others := match taken with
    | some n => args.take n ++ args.drop (n + 1)
    | none => args
  (Usage.plain "chmod" "cfRv" "M" long).run others p fun g =>
    let modes := (taken.bind (args[·]?)).toList
    let (mode, operands) := match g.value? 'M', modes, g.operands with
      | some _, _, operands => (some "", operands)
      | none, mode :: _, operands => (some mode, operands)
      | none, [], mode :: operands => (some mode, operands)
      | none, [], [] => (none, [])
    match mode, operands with
    | none, _ => missing p "chmod" "operand"
    | some mode, [] =>
      if modes ≠ [] then missing p "chmod" "operand"
      else missing p "chmod" s!"operand after {quotedText mode}"
    | some mode, operands =>
      match if g.has 'M' then some [] else mode? mode with
      | some parts => each p operands (chmodOne g parts)
      | none =>
        p.fail 1 (s!"chmod: invalid mode: {quotedText mode}\n" ++
          "Try 'chmod --help' for more information.")

end FunctionJar.Shell.Utility
