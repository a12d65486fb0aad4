import FunctionJar.Shell.Mode

namespace FunctionJar.Shell.Process

/-- A number that a command of the shell takes: not negative, and with blanks around it at most. -/
def count? (s : String) : Option Nat :=
  (Text.digits? (Text.dropPlus (Text.trim s.toList))).filter (· < Nat.pow 2 31)

def countOr (command : String) (without : Nat) (args : List String) (p : Process)
    (act : Nat → Process) : Process :=
  match args with
  | [] => act without
  | arg :: _ =>
    match count? arg with
    | some n => act n
    | none => p.refuse command s!"Illegal number: {arg}"

def exit_ (args : List String) (p : Process) : Process := countOr "exit" p.status args p p.exit

def return_ (args : List String) (p : Process) : Process :=
  countOr "return" p.status args p fun n => { p with jump := some .back, status := n % 256 }

def shift (args : List String) (p : Process) : Process :=
  countOr "shift" 1 args p fun n =>
    if n ≤ p.args.length then { p with args := p.args.drop n, status := 0 }
    else p.refuse "shift" "can't shift that many"

/-- Leaves loops or goes on with them; outside of all loops nothing happens. -/
def jumpBy (command : String) (make : Nat → Jump) (args : List String) (p : Process) : Process :=
  countOr command 1 args p fun n =>
    if n = 0 then p.refuse command "Illegal number: 0"
    else if p.loops = 0 then p.withStatus 0
    else { p with jump := some (make (min n p.loops - 1)), status := 0 }

/-- After one round of a loop: whether to go on, with a jump that ends here taken away. -/
def afterRound (p : Process) : Process × Bool :=
  if p.ended.isSome then (p, false)
  else match p.jump with
    | none => (p, true)
    | some .back => (p, false)
    | some (.leave 0) => ({ p with jump := none }, false)
    | some (.again 0) => ({ p with jump := none }, true)
    | some (.leave (n + 1)) => ({ p with jump := some (.leave n) }, false)
    | some (.again (n + 1)) => ({ p with jump := some (.again n) }, false)

def physical (p : Process) (path : String) : String :=
  match p.disk.resolve path with
  | .ok parts => "/" ++ Text.join "/" parts
  | .error _ => path

def isAnchored (path : String) : Bool :=
  path.startsWith "/" || ["", ".", ".."].contains ((Path.parts path).headD "") && path ≠ ""

def cd (args : List String) (p : Process) : Process :=
  match optionsOf ['L', 'P'] [] args with
  | .error text => p.refuse "cd" text
  | .ok (os, operands) =>
    let target := match operands with
      | [] => (p.get? "HOME").getD ""
      | "-" :: _ => (p.get? "OLDPWD").getD ""
      | target :: _ => target
    let roads := if isAnchored target then []
      else (Text.splitAt ':' ((p.get? "CDPATH").getD "").toList).map String.ofList
    let found := roads.find? fun road => p.disk.isFolder (p.path (Path.join road target))
    let place := Path.join (found.getD "") target
    let folder := Path.normal (Path.join p.folder place)
    if p.disk.isFolder folder then
      let folder := if (os.getLast?.map (·.1)) = some 'P' then p.physical folder else folder
      let moved := ({ p with folder := folder, status := 0 }.set "OLDPWD" p.folder).set "PWD" folder
      let moved := { moved with exported := "OLDPWD" :: "PWD" :: moved.exported }
      if operands.head? = some "-" ∨ found.any (· != "") then moved.printLine folder else moved
    else p.refuse "cd" s!"can't cd to {target}"

def pwd (args : List String) (p : Process) : Process :=
  match optionsOf ['L', 'P'] [] args with
  | .error text => p.refuse "pwd" text
  | .ok (os, _) =>
    let folder := if (os.getLast?.map (·.1)) = some 'P' then p.physical p.folder else p.folder
    (p.printLine folder).withStatus 0

def maskText (mask : Nat) : String := Text.padLeft 4 '0' (String.ofList (Nat.toDigits 8 mask))

def maskList (mask : Nat) : String :=
  let class_ (who : String) (bits : Nat) : String :=
    let allowed := [("r", 4), ("w", 2), ("x", 1)].filter fun l => bits / l.2 % 2 == 0
    who ++ "=" ++ Text.join "" (allowed.map (·.1))
  Text.join "," [class_ "u" (mask / 64 % 8), class_ "g" (mask / 8 % 8), class_ "o" (mask % 8)]

def umask (args : List String) (p : Process) : Process :=
  match optionsOf ['S'] [] args with
  | .error text => p.refuse "umask" text
  | .ok (os, []) =>
    (p.printLine (if os = [] then maskText p.mask else maskList p.mask)).withStatus 0
  | .ok (_, mode :: _) =>
    if (mode.toList.head?.any Char.isDigit) then
      if mode.toList.all fun c => '0' ≤ c && c ≤ '7' then
        { p with mask := mode.toList.foldl (fun n c => n * 8 + (c.toNat - 48)) 0 % 512, status := 0 }
      else p.refuse "umask" s!"Illegal number: {mode}"
    else if mode.toList.all fun c => "ugoa+-=rwxXst,".toList.contains c then p.withStatus 0
    else p.refuse "umask" s!"Illegal mode: {mode}"

def ulimit (args : List String) (p : Process) : Process :=
  match optionsOf "HSatfdscmlpnvwr".toList [] args with
  | .error text => p.refuse "ulimit" text
  | .ok (_, []) => (p.printLine "unlimited").withStatus 0
  | .ok (_, limit :: _) =>
    if limit = "unlimited" ∨ (Text.digits? limit.toList).isSome then p.withStatus 0
    else p.refuse "ulimit" "bad number"

def wait (args : List String) (p : Process) : Process :=
  match args.getLast? with
  | none => p.withStatus 0
  | some job =>
    if job.startsWith "%" then p.refuse "wait" s!"No such job: {job}"
    else match count? job with
      | some _ => p.withStatus ((p.jobs.lookup job).getD 127)
      | none => p.refuse "wait" s!"Illegal number: {job}"

def resume (command : String) (args : List String) (p : Process) : Process :=
  match args with
  | [] => p.refuse command "No current job"
  | job :: _ => p.refuse command s!"No such job: {job}"

def nameAlias (args : List String) (p : Process) : Process :=
  args.foldl (fun p arg =>
    if arg.toList.contains '=' then p else p.fail 1 s!"alias: {arg} not found") (p.withStatus 0)

def unalias (args : List String) (p : Process) : Process :=
  args.foldl (fun p arg =>
    if arg = "-a" then p else p.fail 1 s!"unalias: {arg} not found") (p.withStatus 0)

def times (_ : List String) (p : Process) : Process :=
  (Utility.printLines p (List.replicate 2 "0m0.000000s 0m0.000000s")).withStatus 0

def builtins : List (String × (List String → Process → Process)) :=
  [(":", fun _ p => p.withStatus 0),
    ("exit", exit_),
    ("return", return_),
    ("break", jumpBy "break" .leave),
    ("continue", jumpBy "continue" .again),
    ("shift", shift),
    ("set", set_),
    ("export", export_),
    ("readonly", readonly),
    ("local", local_),
    ("unset", unset_),
    ("read", read),
    ("getopts", getopts),
    ("trap", trap),
    ("kill", kill),
    ("cd", cd),
    ("chdir", cd),
    ("pwd", pwd),
    ("umask", umask),
    ("ulimit", ulimit),
    ("wait", wait),
    ("jobs", fun _ p => p.withStatus 0),
    ("fg", resume "fg"),
    ("bg", resume "bg"),
    ("alias", nameAlias),
    ("unalias", unalias),
    ("times", times)]

end FunctionJar.Shell.Process
