import FunctionJar.Shell.Child
import FunctionJar.Shell.Descriptor

namespace FunctionJar.Shell

open Text (Bytes)

def rounds {σ : Type} (round : σ → σ × Bool) : Nat → σ → σ × Bool
  | 0, s => (s, false)
  | limit + 1, s =>
    match round s with
    | (s, true) => rounds round limit s
    | (s, false) => (s, true)

def roundLimit : Nat := 200000

def loosened : Chunk → Chunk
  | .solid ms => if ms ≠ [] ∧ ms.all (!·.isQuoted) then .loose (unmark ms) else .solid ms
  | c => c

def scriptText (bytes : Bytes) : String := String.ofList (textOf bytes)

/-- What a shell that follows itself prints about a command: the names given values, and the
fields. -/
def traced (p : Process) (given : List (String × String)) (fields : List String) : Process :=
  if p.has 'x' then
    let words := given.map (fun v => v.1 ++ "=" ++ v.2) ++ fields
    p.complain ((p.get? "PS4").getD "" ++ Text.join " " words)
  else p

/-- A file to write to, emptied unless it is to be added to. -/
def openSink (p : Process) (descriptor : Nat) (target : String) (adds forced : Bool) :
    Process × Bool :=
  let refused (e : OsError) : Process × Bool :=
    (p.object 2 s!"cannot create {target}: {openText e}", false)
  match if target = "" then .file "" else p.sinkAt target with
  | .file path =>
    let there := p.disk.read path
    if there.isOk ∧ adds then (p.withSink descriptor (.file path), true)
    else if there.isOk ∧ p.has 'C' ∧ !forced then refused .taken
    else match p.edit (.write path []) with
      | .ok p => (p.withSink descriptor (.file path), true)
      | .error e => refused e
  | s => (p.withSink descriptor s, true)

def openSource (p : Process) (descriptor : Nat) (target : String) : Process × Bool :=
  match target with
  | "/dev/null" => (p.withSource descriptor [], true)
  | "/dev/stdin" | "/dev/fd/0" => (p.withSource descriptor p.input, true)
  | target =>
    match p.disk.read (p.path target) with
    | .ok bytes => (p.withSource descriptor bytes, true)
    | .error .isDirectory => (p.withSource descriptor [], true)
    | .error e => (p.object 2 s!"cannot open {target}: {inputText e}", false)

def openSame (p : Process) (descriptor : Nat) (target : String) : Process × Bool :=
  if target = "-" then (p.closing descriptor, true)
  else match Text.digits? target.toList with
    | some n =>
      match p.sharing? descriptor n with
      | some p => (p, true)
      | none => (p.object 2 s!"{target}: Bad file descriptor", false)
    | none => ((p.object 2 "Syntax error: Bad fd number").exit 2, false)

mutual

def expand (split : Bool) : Nat → Part → Process → Process × List Chunk
  | 0, _, p => (p, [])
  | fuel + 1, part, p =>
    match part with
    | .text s isQuoted => (p, [.solid (marks isQuoted s)])
    | .value name isQuoted => (p.demand name, [p.chunk name isQuoted split])
    | .length name isQuoted =>
      let v := if name = "@" ∨ name = "*" then toString p.args.length
        else toString (bytesOf ((p.value? name).getD "")).length
      (p.demand name, [Process.chunkOf v isQuoted])
    | .cut name how pattern isQuoted =>
      let (p, ms) := expandMarks fuel pattern p
      let v := (p.value? name).getD ""
      let cut := if how.atStart then cutStart how.longest ms v else cutEnd how.longest ms v
      (p.demand name, [Process.chunkOf cut isQuoted])
    | .otherwise name what orEmpty word isQuoted =>
      let v := p.value? name
      let isMissing := v.isNone || (orEmpty && v == some "")
      let other (p : Process) : Process × List Chunk :=
        let (p, chunks) := expandParts split fuel (p.homed word) p
        (p, if isQuoted then chunks else chunks.map loosened)
      match what, isMissing with
      | .instead, true => (p, [])
      | .instead, false | .use, true => other p
      | .assign, true =>
        let (p, ms) := expandMarks fuel (p.homed word) p
        let p := p.assign name (unmark ms)
        (p, [p.chunk name isQuoted split])
      | .fail, true =>
        let (p, ms) := expandMarks fuel word p
        let default := if orEmpty then "parameter not set or null" else "parameter not set"
        let text := if word.isEmpty then default else unmark ms
        ((p.object 2 s!"{name}: {text}").exit 2, [])
      | _, false => (p, [p.chunk name isQuoted split])
    | .arith expression isQuoted =>
      let (p, ms) := expandMarks fuel expression p
      let text := unmark ms
      match Arith.eval p.get? text with
      | .ok (n, changes) =>
        let give (p : Process) (change : String × Int) : Process :=
          if p.isStopped then p else p.assign change.1 (toString change.2)
        (changes.reverse.foldl give p, [Process.chunkOf (toString n) isQuoted])
      | .error fault => ((p.object 2 (fault.message text)).exit 2, [])
    | .output script isQuoted =>
      let inner := atEnd fuel (run fuel script { p.source with isTest := false })
      let text := textOf inner.lastHeld
      let kept := (text.reverse.dropWhile (· == '\n')).reverse
      let after := p.await inner
      (settle fuel { after with status := p.status, answered := after.status },
        [Process.chunkOf (String.ofList kept) isQuoted])
    | .bad => ((p.object 2 "Bad substitution").exit 2, [])

def expandParts (split : Bool) : Nat → List Part → Process → Process × List Chunk
  | 0, _, p => (p, [])
  | _, [], p => (p, [])
  | fuel + 1, part :: rest, p =>
    if p.isStopped then (p, [])
    else
      let (p, chunks) := expand split fuel part p
      let (p, more) := expandParts split fuel rest p
      (p, chunks ++ more)

def expandMarks : Nat → List Part → Process → Process × List Mark
  | 0, _, p => (p, [])
  | fuel + 1, word, p =>
    let (p, chunks) := expandParts false fuel word p
    (p, chunks.flatMap Chunk.text)

def expandWords : Nat → List (List Part) → Process → Process × List String
  | 0, _, p => (p, [])
  | _, [], p => (p, [])
  | fuel + 1, word :: rest, p =>
    let (p, chunks) := expandParts true fuel (p.homed word) p
    let here := (Fields.ofChunks p.separators chunks).flatMap (globbed p)
    let (p, more) := expandWords fuel rest p
    (p, here ++ more)

def assign : Nat → List (String × List Part) → Process → Process × List (String × String)
  | 0, _, p => (p, [])
  | _, [], p => (p, [])
  | fuel + 1, (name, word) :: rest, p =>
    let (p, ms) := expandMarks fuel (p.homedAll true word) p
    let value := unmark ms
    if p.isStopped then (p, [])
    else
      let (p, more) := assign fuel rest (p.assign name value)
      (p, (name, value) :: more)

def redirect : Nat → List Redirect → Process → Process × Bool
  | 0, _, p => (p, true)
  | _, [], p => (p, true)
  | fuel + 1, r :: rest, p =>
    let target (word : List Part) (act : Process → String → Process × Bool) : Process × Bool :=
      let (p, ms) := expandMarks fuel (p.homed word) p
      if p.isStopped then (p, false) else act p (unmark ms)
    let opened := match r with
      | .input d word => target word fun p path => openSource p d path
      | .document d text =>
        let (p, ms) := expandMarks fuel text p
        (p.withSource d (bytesOf (unmark ms)), !p.isStopped)
      | .output d forced word => target word fun p path => openSink p d path false forced
      | .append d word =>
        target word fun p path =>
          match openSink p d path true true with
          | (p, true) => if d = 0 then openSource p 0 path else (p, true)
          | refused => refused
      | .same d word => target word fun p text => openSame p d text
      | .close d => (p.closing d, true)
    match opened with
    | (p, true) => redirect fuel rest p
    | refused => refused

def settle : Nat → Process → Process
  | 0, p => p
  | fuel + 1, p =>
    match if p.isStopped then none else p.traps.pending with
    | none => p
    | some script =>
      let after := run fuel (parse script) { p with traps.pending := none }
      settle fuel (if after.isStopped then after else after.withStatus p.status)

def runText : Nat → String → String → Process → Process
  | 0, _, _, p => { p with ended := some .hangs }
  | fuel + 1, cause, script, p =>
    { run fuel (parse script) { p with cause := cause } with cause := p.cause }

def runFunction : Nat → Command → List String → Process → Process
  | 0, _, _, p => { p with ended := some .hangs }
  | fuel + 1, body, args, p =>
    let inner := run fuel body { p with args := args, outer := some [], loops := 0 }
    let restored := (inner.outer.getD []).foldl (fun p v => p.restore v.1 v.2) inner
    { restored with
      args := p.args
      outer := p.outer
      loops := p.loops
      jump := if inner.jump = some .back then none else inner.jump }

def call : Nat → List String → Process → Process
  | 0, _, p => { p with ended := some .hangs }
  | _, [], p => p.withStatus 0
  | fuel + 1, name :: args, p =>
    match p.functions.lookup name, name, args with
    | some body, _, args => runFunction fuel body args p
    | none, "exec", [] => p.withStatus 0
    | none, "exec", name :: args =>
      match launchFrom p (p.searched name) with
      | .ok (path, l) =>
        let p := start fuel l name path args { p with traps := p.ignoring }
        if p.ended.isSome then p else p.exit p.status
      | .error e =>
        let status := startStatus e
        (p.protest status s!"exec: {name}: {startText e}").exit status
    | none, "command", args =>
      match optionsOf ['v', 'V', 'p'] [] args with
      | .error text => p.refuse "command" text
      | .ok (_, []) => p.withStatus 0
      | .ok ([], args) | .ok ([('p', _)], args) =>
        let plain := call fuel args { p with functions := [], isMild := true }
        { plain with functions := p.functions, isMild := p.isMild }
      | .ok (os, name :: _) =>
        let p := p.withStatus 0
        if (os.lookup 'V').isSome then describe p name
        else match Meaning.of? p name with
          | some (.file path) => p.printLine path
          | some _ => p.printLine name
          | none => p.withStatus 127
    | none, "type", names => names.foldl describe (p.withStatus 0)
    | none, "hash", names =>
      (names.filter (· != "-r")).foldl (fun p name =>
        if (own? name).isSome ∨ (p.located? name).isSome then p
        else p.protest 1 s!"hash: {name}: not found") (p.withStatus 0)
    | none, "eval", args => runText fuel "eval" (Text.join " " args) (p.withStatus 0)
    | none, ".", [] => p.withStatus 0
    | none, ".", path :: _ =>
      let hasFolder := path.toList.contains '/'
      match if hasFolder then some path else p.located? path with
      | none => p.refuse "." s!"{path}: not found"
      | some found =>
        match p.disk.read (p.path found) with
        | .ok bytes =>
          let after := runText fuel found (scriptText bytes) (p.withStatus 0)
          { after with jump := if after.jump = some .back then none else after.jump }
        | .error .isDirectory => p.withStatus 0
        | .error e => p.refuse "." s!"cannot open {path}: {inputText e}"
    | none, name, args =>
      match own? name with
      | some act => act args p
      | none =>
        match launchFrom p (p.searched name) with
        | .ok (path, l) => p.await (start fuel l name path args p.child)
        | .error e =>
          p.object (if name.toList.contains '/' then startStatus e else 127)
            s!"{name}: {startText e}"

def start : Nat → Launch → String → String → List String → Process → Process
  | 0, _, _, _, _, p => { p with ended := some .hangs }
  | fuel + 1, l, called, path, args, p =>
    match l.tool with
    | none => shell fuel called (l.front ++ path :: args) p
    | some "sh" | some "dash" => shell fuel called (l.front ++ args) p
    | some "env" =>
      match environment p.ordered (l.front ++ args) with
      | .error text => p.fail 125 s!"env: {text}\nTry 'env --help' for more information."
      | .ok (inner, []) => (inner.printVariables).withStatus 0
      | .ok (inner, name :: args) =>
        let folders := (inner.get? "PATH").getD "/bin:/usr/bin"
        match if name = "" then .error .notFound else launchFrom p (candidates name folders) with
        | .ok (path, l) => start fuel l name path args inner
        | .error e => p.fail (startStatus e) s!"env: '{name}': {e.text}"
    | some name =>
      match tools.lookup name with
      | some act => act (l.front ++ args) p
      | none => p.visit (l.front ++ args)

/-- A shell of its own, over a script that is given in the arguments, or lies in a file, or is to
be read. -/
def shell : Nat → String → List String → Process → Process
  | 0, _, _, p => { p with ended := some .hangs }
  | fuel + 1, called, args, p =>
    let within (script : String) (p : Process) : Process :=
      let p := p.withoutTerminal s!"{called}: 0" (p.has 'm' || p.has 'i')
      atEnd fuel (run fuel (parse script) (p.withStatus 0))
    let fresh := { p.freshShell with name := called }
    match Process.setModes true (args.length + 1) ⟨fresh, args, false⟩ with
    | .error text => fresh.protest 2 text
    | .ok (⟨fresh, [], true⟩, _) => fresh.protest 2 "-c requires an argument"
    | .ok (⟨fresh, script :: rest, true⟩, _) =>
      within script { fresh with name := rest.headD called, args := rest.tail }
    | .ok (⟨fresh, left, false⟩, _) =>
      match if fresh.has 's' then none else left.head? with
      | none =>
        let modes := if fresh.has 's' then fresh.modes else 's' :: fresh.modes
        within (scriptText fresh.input) { fresh.withInput [] with args := left, modes := modes }
      | some path =>
        match p.disk.read (p.path path) with
        | .ok bytes => within (scriptText bytes) { fresh with name := path, args := left.drop 1 }
        | .error .isDirectory => fresh
        | .error e => fresh.protest 2 s!"cannot open {path}: {inputText e}"

def atEnd : Nat → Process → Process
  | 0, p => { p with ended := some .hangs }
  | fuel + 1, p =>
    let status := match p.ended with
      | none => some p.status
      | some (.exited n) => some n
      | some (.killed ..) | some .hangs => none
    match status, p.traps.atExit with
    | some status, some script =>
      let before : Process := { p with ended := none, jump := none, traps.atExit := none }
      let after := run fuel (parse script) (before.withStatus status)
      if after.ended.isSome then after
      else { after with ended := p.ended, jump := p.jump, status := p.status }
    | _, _ => p

def chooseArm : Nat → List Char → List (List (List Part) × Command) → Process → Process
  | 0, _, _, p => p
  | _, _, [], p => p.withStatus 0
  | fuel + 1, text, (patterns, body) :: rest, p =>
    let (p, hit) := anyFits fuel text patterns p
    if p.isStopped then p
    else if hit then run fuel body (p.withStatus 0) else chooseArm fuel text rest p

def anyFits : Nat → List Char → List (List Part) → Process → Process × Bool
  | 0, _, _, p => (p, false)
  | _, _, [], p => (p, false)
  | fuel + 1, text, pattern :: rest, p =>
    let (p, ms) := expandMarks fuel pattern p
    if matchesPattern ms text then (p, true) else anyFits fuel text rest p

/-- A simple command: its words become fields, its redirections are opened and its names get their
values, in that order, and then it is called. -/
def runSimple : Nat → List (String × List Part) → List (List Part) → List Redirect → Process →
    Process
  | 0, _, _, _, p => { p with ended := some .hangs }
  | fuel + 1, assignments, words, redirects, p =>
    let (p, fields) := expandWords fuel words { p with answered := 0 }
    if p.isStopped then p
    else
      let name := fields.headD ""
      match redirect fuel redirects p with
      | (after, false) =>
        let after := after.restoreStreams p redirects
        if isSpecial name ∧ !after.isStopped then after.exit 2 else after
      | (opened, true) =>
        let (given, values) := assign fuel assignments opened
        if given.isStopped then given.restoreStreams p redirects
        else
          let given := { traced { given with streams := p.streams } values fields with
            streams := given.streams }
          if fields = [] then (given.withStatus given.answered).restoreStreams p redirects
          else
            let names := assignments.map (·.1)
            let after := call fuel fields { given with exported := names ++ given.exported }
            let after := if isSpecial name ∨ names.isEmpty then after
              else
                let back := names.foldl (fun q n => q.restore n (opened.get? n)) after
                { back with exported := names.foldl List.erase after.exported }
            if name = "exec" then after else after.restoreStreams p redirects

def run : Nat → Command → Process → Process
  | 0, _, p => { p with ended := some .hangs }
  | fuel + 1, command, p =>
    if p.has 'n' then p
    else match command with
    | .nothing => p
    | .simple line assignments words redirects =>
      settle fuel (runSimple fuel assignments words redirects { p with line := line }).heed
    | .define name body =>
      { p with functions := (name, body) :: p.functions, status := 0 }
    | .seq a b =>
      let p := run fuel a p
      if p.isStopped then p else run fuel b p
    | .and a b =>
      let p := asked fuel a p
      if p.isStopped ∨ p.status ≠ 0 then p else run fuel b p
    | .or a b =>
      let p := asked fuel a p
      if p.isStopped ∨ p.status = 0 then p else run fuel b p
    | .not c =>
      let p := asked fuel c p
      if p.isStopped then p else p.withStatus (if p.status = 0 then 1 else 0)
    | .pipe a b =>
      let source := run fuel a p.source
      let p := p.absorb { source with streams := p.streams }
      if p.isStopped then p
      else
        let sink := atEnd fuel (run fuel b (p.inner.withInput source.lastHeld))
        settle fuel (p.await { sink with streams.input := p.input }).heed
    | .background c =>
      let other := atEnd fuel (run fuel c (p.inner.withInput []))
      settle fuel (p.leave other)
    | .cond test yes no =>
      let p := asked fuel test p
      if p.isStopped then p
      else if p.status = 0 then run fuel yes p
      else run fuel no (p.withStatus 0)
    | .loop until_ test body =>
      let round (p : Process) : Process × Bool :=
        let tested := asked fuel test p
        if tested.isStopped then tested.afterRound
        else if (tested.status == 0) == until_ then (tested.withStatus p.status, false)
        else (run fuel body tested).afterRound
      match rounds round roundLimit { p with status := 0, loops := p.loops + 1 } with
      | (after, true) => { after with loops := p.loops }
      | (after, false) => { after with ended := some .hangs }
    | .each name words body =>
      let (p, items) := match words with
        | some words => expandWords fuel words p
        | none => (p, p.args)
      let round (state : Process × Bool) (item : String) : Process × Bool :=
        if state.2 then
          let p := state.1.assign name item
          if p.isStopped then (p, false) else (run fuel body p).afterRound
        else state
      if p.isStopped then p
      else
        let (after, _) := items.foldl round ({ p with status := 0, loops := p.loops + 1 }, true)
        { after with loops := p.loops }
    | .choose word arms =>
      let (p, ms) := expandMarks fuel (p.homed word) p
      if p.isStopped then p else chooseArm fuel (ms.map (·.char)) arms p
    | .subshell body =>
      settle fuel (p.await (atEnd fuel (run fuel body p.inner))).heed
    | .redirected body redirects =>
      match redirect fuel redirects p with
      | (after, false) => (after.restoreStreams p redirects).heed
      | (opened, true) => (run fuel body opened).restoreStreams p redirects
    | .broken line text => ({ p with line := line }.object 2 s!"Syntax error: {text}").exit 2

def asked : Nat → Command → Process → Process
  | 0, _, p => { p with ended := some .hangs }
  | fuel + 1, c, p => { run fuel c { p with isTest := true } with isTest := p.isTest }

end

end FunctionJar.Shell
