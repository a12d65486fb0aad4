import FunctionJar.Shell.Variable

namespace FunctionJar.Shell.Process

def setMode (on : Bool) (p : Process) (letter : Char) : Except String Process :=
  if (shellModes.lookup letter).isNone then .error s!"Illegal option -{letter}"
  else
    let others := p.modes.filter (· != letter)
    .ok { p with modes := if on then letter :: others else others }

def showModes (asTable : Bool) (p : Process) : Process :=
  let line (m : Char × String) : String :=
    if asTable then
      m.2 ++ String.ofList (List.replicate (16 - m.2.length) ' ') ++
        (if p.has m.1 then "on" else "off")
    else (if p.has m.1 then "set -o " else "set +o ") ++ m.2
  Utility.printLines p
    ((if asTable then ["Current option settings"] else []) ++ shellModes.map line)

structure Setting where
  process : Process
  left : List String
  takesText : Bool

/-- Sets or clears the options of one group, where an `o` takes the name of one. Only a shell that
starts is told with a `c` to take its script as text. -/
def setGroup (isStart on : Bool) : List Char → Setting → Except String Setting
  | [], s => .ok s
  | 'o' :: letters, s =>
    match s.left with
    | [] => setGroup isStart on letters { s with process := s.process.showModes on }
    | name :: left =>
      match shellModes.find? fun m => m.2 == name with
      | none => .error s!"Illegal option -o {name}"
      | some (letter, _) =>
        match s.process.setMode on letter with
        | .ok p => setGroup isStart on letters { s with process := p, left := left }
        | .error text => .error text
  | letter :: letters, s =>
    if isStart ∧ letter = 'c' then setGroup isStart on letters { s with takesText := true }
    else if isStart ∧ letter = 'l' then setGroup isStart on letters s
    else match s.process.setMode on letter with
      | .ok p => setGroup isStart on letters { s with process := p }
      | .error text => .error text

def setModes (isStart : Bool) : Nat → Setting → Except String (Setting × Bool)
  | 0, s => .ok (s, false)
  | fuel + 1, s =>
    match s.left with
    | [] => .ok (s, false)
    | arg :: left =>
      match arg.toList with
      | '-' :: letters =>
        if letters = [] then
          let quiet := s.process.modes.filter fun m => m != 'x' && m != 'v'
          let p := if isStart then s.process else { s.process with modes := quiet }
          .ok (⟨p, left, s.takesText⟩, false)
        else if letters = ['-'] then .ok ({ s with left := left }, left.isEmpty)
        else match setGroup isStart true letters { s with left := left } with
          | .ok s => setModes isStart fuel s
          | .error text => .error text
      | '+' :: letters =>
        match setGroup isStart false letters { s with left := left } with
        | .ok s => setModes isStart fuel s
        | .error text => .error text
      | _ => .ok (s, false)

def withoutTerminal (p : Process) (lead : String) (isWanted : Bool) : Process :=
  if isWanted then
    { p.complain s!"{lead}: can't access tty; job control turned off" with
      modes := p.modes.filter (· != 'm') }
  else p

def set_ (args : List String) (p : Process) : Process :=
  if args = [] then (p.printNames "" (p.vars.map (·.1))).withStatus 0
  else match setModes false (args.length + 1) ⟨p, args, false⟩ with
    | .error text => p.refuse "set" text
    | .ok (s, reset) =>
      let q := s.process.withoutTerminal s!"{p.name}: {p.line}: set" (s.process.has 'm')
      { q with args := if reset ∨ s.left ≠ [] then s.left else q.args, status := 0 }

end FunctionJar.Shell.Process
