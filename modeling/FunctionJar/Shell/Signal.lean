import FunctionJar.Shell.Process
import FunctionJar.Text.Decimal

namespace FunctionJar.Shell

def signals : List (String × Nat) :=
  [("HUP", 1), ("INT", 2), ("QUIT", 3), ("ILL", 4), ("TRAP", 5), ("ABRT", 6), ("BUS", 7),
    ("FPE", 8), ("KILL", 9), ("USR1", 10), ("SEGV", 11), ("USR2", 12), ("PIPE", 13), ("ALRM", 14),
    ("TERM", 15), ("STKFLT", 16), ("CHLD", 17), ("CONT", 18), ("STOP", 19), ("TSTP", 20),
    ("TTIN", 21), ("TTOU", 22), ("URG", 23), ("XCPU", 24), ("XFSZ", 25), ("VTALRM", 26),
    ("PROF", 27), ("WINCH", 28), ("IO", 29), ("PWR", 30), ("SYS", 31), ("RTMIN", 34),
    ("RTMAX", 64)]

def lastSignal : Nat := 64

def signal? (s : String) : Option Nat :=
  ((signals.lookup (Text.upper s)).or (Text.digits? s.toList)).filter (· ≤ lastSignal)

def signalName (n : Nat) : String :=
  ((signals.find? fun s => s.2 == n).map (·.1)).getD (toString n)

namespace Process

def signalled (n : Nat) (p : Process) : Process :=
  match p.traps.atSignals.lookup n, n with
  | some script, _ =>
    if n = 9 then { p with ended := some (.killed n false) }
    else if script = "" then p
    else { p with traps.pending := some script }
  | none, 0 | none, 17 | none, 18 | none, 23 | none, 28 => p
  | none, 19 | none, 20 | none, 21 | none, 22 => { p with ended := some .hangs }
  | none, n => { p with ended := some (.killed n false) }

def deliver (sent : List (Nat × Nat)) (p : Process) : Process :=
  sent.foldl (fun p (id, n) =>
    if p.isStopped then p
    else if id = p.id ∧ !p.isInner then p.signalled n
    else { p with struck := p.struck ++ [(id, n)] }) p

def killTargets (args : List String) : Except String (Nat × List String) :=
  match args with
  | [] => .ok (15, [])
  | arg :: rest =>
    match arg.toList with
    | '-' :: cs =>
      match signal? (String.ofList cs), cs, rest with
      | some n, _, _ => .ok (n, rest)
      | none, ['-'], rest => .ok (15, rest)
      | none, ['s'], [] => .error "No arg for -s option"
      | none, ['s'], s :: rest => named s (if rest.head? = some "--" then rest.drop 1 else rest)
      | none, 's' :: cs, rest => named (String.ofList cs) rest
      | none, c :: _, _ => .error s!"Illegal option -{c}"
      | none, [], _ => .error "Illegal number: -"
    | _ => .ok (15, args)
where
  named (s : String) (rest : List String) : Except String (Nat × List String) :=
    match signal? s with
    | some n => .ok (n, rest)
    | none => .error s!"invalid signal number or name: {s}"

def killUsage : String :=
  "Usage: kill [-s sigspec | -signum | -sigspec] [pid | job]... or\nkill -l [exitstatus]"

/-- Sends a signal to one process after another, of which only this one and those around it are
there. -/
def sendAll (n : Nat) : List String → Process → Process
  | [], p => p
  | target :: rest, p =>
    if p.isStopped then p
    else match Text.digits? target.toList with
      | some id =>
        if id = p.id ∨ p.parents.contains id then sendAll n rest (p.deliver [(id, n)])
        else sendAll n rest (p.protest 1 "kill: No such process\n")
      | none =>
        if (Text.digits? (target.toList.dropWhile (· == '-'))).isSome then
          sendAll n rest (p.protest 1 "kill: No such process\n")
        else if target.startsWith "%" then p.protest 2 s!"kill: No such job: {target}"
        else p.protest 2 s!"kill: Illegal number: {target}"

def kill (args : List String) (p : Process) : Process :=
  match args with
  | "-l" :: s :: _ =>
    match Text.digits? s.toList with
    | some n => (p.printLine (signalName (if 128 < n then n - 128 else n))).withStatus 0
    | none => p.protest 2 s!"kill: Illegal number: {s}"
  | ["-l"] =>
    ((List.range lastSignal).foldl (fun p n => p.printLine (signalName (n + 1))) p).withStatus 0
  | _ =>
    match killTargets args with
    | .error text => p.protest 2 s!"kill: {text}"
    | .ok (_, []) => p.protest 2 s!"kill: {killUsage}"
    | .ok (n, targets) => sendAll n targets (p.withStatus 0)

def trapOne (action : Option String) (p : Process) (event : String) : Process :=
  match if event = "EXIT" then some 0 else signal? event with
  | some 0 => { p with traps.atExit := action }
  | some n =>
    let others := p.traps.atSignals.filter fun t => t.1 != n
    { p with traps.atSignals := action.elim others fun script => (n, script) :: others }
  | none => p.fail 1 s!"trap: {event}: bad trap"

/-- The rest of a text in quotes, where `open'` is the quote that is open: a single one, or a double
one around single quotes that belong to the text. -/
def quotedFrom (open' : Char) : List Char → List Char
  | [] => [open']
  | c :: rest =>
    if (c = '\'') = (open' = '"') then c :: quotedFrom open' rest
    else if c = '\'' then ['\'', '"', c] ++ quotedFrom '"' rest
    else ['"', '\'', c] ++ quotedFrom '\'' rest

def quoted (s : String) : String := String.ofList ('\'' :: quotedFrom '\'' s.toList)

def printTraps (p : Process) : Process :=
  let atExit := p.traps.atExit.toList.map (0, ·)
  let sorted := (atExit ++ p.traps.atSignals).mergeSort fun a b => a.1 ≤ b.1
  sorted.foldl (fun p (n, script) =>
    let event := if n = 0 then "EXIT" else signalName n
    p.printLine s!"trap -- {quoted script} {event}") p

def optionText (arg : String) : String := String.ofList (arg.toList.take 2)

def trap (args : List String) (p : Process) : Process :=
  match if args.head? = some "--" then args.drop 1 else args with
  | [] => p.printTraps.withStatus 0
  | [event] =>
    if event.startsWith "-" ∧ event ≠ "-" then refuse p "trap" s!"Illegal option {optionText event}"
    else trapOne none (p.withStatus 0) event
  | action :: events =>
    let reset := action = "-" || (Text.digits? action.toList).isSome
    let events := if action = "-" ∨ !reset then events else action :: events
    if action.startsWith "-" ∧ action ≠ "-" then
      refuse p "trap" s!"Illegal option {optionText action}"
    else events.foldl (trapOne (if reset then none else some action)) (p.withStatus 0)

end Process

end FunctionJar.Shell
