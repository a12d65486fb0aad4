import FunctionJar.Shell.Parser
import FunctionJar.Shell.Signal
import FunctionJar.Shell.Value

namespace FunctionJar.Shell

open Text (Bytes)

def optionsOf (allowed valued : List Char) :
    List String → Except String (List (Char × String) × List String)
  | [] => .ok ([], [])
  | arg :: rest =>
    match arg.toList with
    | '-' :: c :: cs =>
      if arg = "--" then .ok ([], rest)
      else
        let flags := (c :: cs).takeWhile allowed.contains
        let plain := flags.map fun c => (c, "")
        match (c :: cs).drop flags.length, rest with
        | [], rest => (optionsOf allowed valued rest).map fun (os, left) => (plain ++ os, left)
        | c :: value, rest =>
          if !valued.contains c then .error s!"Illegal option -{c}"
          else match value, rest with
            | [], [] => .error s!"No arg for -{c} option"
            | [], value :: rest =>
              (optionsOf allowed valued rest).map fun (os, left) => (plain ++ (c, value) :: os, left)
            | value, rest =>
              (optionsOf allowed valued rest).map fun (os, left) =>
                (plain ++ (c, String.ofList value) :: os, left)
    | _ => .ok ([], arg :: rest)

namespace Process

def eachArg (command : String) (act : Process → String → Except String Process) :
    List String → Process → Process
  | [], p => p
  | arg :: rest, p =>
    match act p arg with
    | .ok p => eachArg command act rest p
    | .error text => p.refuse command text

def give (p : Process) (name value : String) : Except String Process :=
  if !isName name then .error s!"{name}: bad variable name"
  else if p.fixed.contains name then .error s!"{name}: is read only"
  else .ok (p.set name value)

def declared (arg : String) : String × Option String :=
  let chars := arg.toList
  let name := chars.takeWhile (· != '=')
  (String.ofList name,
    if name.length < chars.length then some (String.ofList (chars.drop (name.length + 1))) else none)

def declare (act : String → Process → Process) (p : Process) (arg : String) :
    Except String Process :=
  match declared arg with
  | (name, some value) => (p.give name value).map (act name)
  | (name, none) =>
    if isName name then .ok (act name p) else .error s!"{name}: bad variable name"

def printNames (lead : String) (names : List String) (p : Process) : Process :=
  (Utility.sorted names.eraseDups).foldl (fun p name =>
    match p.get? name with
    | some value => p.printLine s!"{lead}{name}={quoted value}"
    | none => p.printLine s!"{lead}{name}") p

def export_ (args : List String) (p : Process) : Process :=
  match optionsOf ['p'] [] args with
  | .error text => p.refuse "export" text
  | .ok (_, []) => (p.printNames "export " p.exported).withStatus 0
  | .ok (_, args) =>
    eachArg "export" (declare fun name p => { p with exported := name :: p.exported }) args
      (p.withStatus 0)

def readonly (args : List String) (p : Process) : Process :=
  match optionsOf ['p'] [] args with
  | .error text => p.refuse "readonly" text
  | .ok (_, []) => (p.printNames "readonly " p.fixed).withStatus 0
  | .ok (_, args) =>
    eachArg "readonly" (declare fun name p => { p with fixed := name :: p.fixed }) args
      (p.withStatus 0)

def shade (p : Process) (name : String) : Process :=
  match p.outer with
  | some shaded =>
    if shaded.any fun v => v.1 == name then p
    else { p with outer := some ((name, p.get? name) :: shaded) }
  | none => p

def local_ (args : List String) (p : Process) : Process :=
  if p.outer.isNone then p.refuse "local" "not in a function"
  else
    eachArg "local" (fun p arg => declare (fun _ p => p) (p.shade (declared arg).1) arg) args
      (p.withStatus 0)

def unset_ (args : List String) (p : Process) : Process :=
  match optionsOf ['v', 'f'] [] args with
  | .error text => p.refuse "unset" text
  | .ok (os, names) =>
    let drop (p : Process) (name : String) : Except String Process :=
      if (os.getLast?.map (·.1)) = some 'f' then
        .ok { p with functions := p.functions.filter fun f => f.1 != name }
      else if !isName name then .error s!"{name}: bad variable name"
      else if p.fixed.contains name then .error s!"{name}: is read only"
      else
        let p := p.unset name
        .ok { p with exported := p.exported.filter (· != name) }
    eachArg "unset" drop names (p.withStatus 0)

/-- A line with the backslashes taken out and what is behind them marked; one before a line feed
joins two lines. With it come the text behind the line and whether a line feed ended it. -/
def escapedLine : Nat → List Char → List Mark × List Char × Bool
  | 0, s => ([], s, false)
  | _, [] => ([], [], false)
  | _, '\n' :: rest => ([], rest, true)
  | fuel + 1, '\\' :: '\n' :: rest => escapedLine fuel rest
  | fuel + 1, '\\' :: c :: rest =>
    let (line, rest, ended) := escapedLine fuel rest
    (⟨c, true⟩ :: line, rest, ended)
  | fuel + 1, c :: rest =>
    let (line, rest, ended) := escapedLine fuel rest
    (⟨c, false⟩ :: line, rest, ended)

def read (args : List String) (p : Process) : Process :=
  match optionsOf ['r'] ['p'] args with
  | .error text => p.refuse "read" text
  | .ok (_, []) => p.refuse "read" "arg count"
  | .ok (os, names) =>
    let text := textOf p.input
    let (line, rest, ended) := if (os.lookup 'r').isSome then
        let line := text.takeWhile (· != '\n')
        (line.map fun c => ⟨c, false⟩, text.drop (line.length + 1), text.contains '\n')
      else escapedLine (text.length + 1) text
    let p := (p.withInput (bytesOf (String.ofList rest))).withStatus (if ended then 0 else 1)
    let values := share p.separators names line
    eachArg "read" (fun p name => p.give name ((values.lookup name).getD "")) names p

/-- The letter at a place in a group of options, or else at the start of the next group, with how
far the search is behind it. There is none at the first argument that is no option. -/
def nextLetter? (args : List String) (next done : Nat) : Nat × Option (Char × Nat) :=
  let group := if 1 < next ∧ 0 < done then ((args[next - 2]?).getD "").toList.drop done else []
  match group with
  | c :: _ => (next, some (c, done + 1))
  | [] =>
    match (args[next - 1]?).map String.toList with
    | some ['-', '-'] => (next + 1, none)
    | some ('-' :: c :: _) => (next + 1, some (c, 2))
    | _ => (next, none)

def described? (letter : Char) : List Char → Option Bool
  | [] => none
  | c :: ':' :: rest => if c = letter then some true else described? letter rest
  | c :: rest => if c = letter then some false else described? letter rest

def getopts (args : List String) (p : Process) : Process :=
  match args with
  | described :: var :: given =>
    let args := if given = [] then p.args else given
    let isQuiet := described.startsWith ":"
    let start := max 1 (Utility.natOf ((p.get? "OPTIND").getD "1"))
    let finish (p : Process) (next done : Nat) (found : String) (status : Nat) : Process :=
      let p := { p.set "OPTIND" (toString next) with optionAt := done }
      match p.give var found with
      | .ok p => p.withStatus status
      | .error text => p.refuse "getopts" text
    match nextLetter? args start p.optionAt with
    | (next, none) => finish p next 0 "?" 1
    | (next, some (c, done)) =>
      let letter := String.singleton c
      let group := ((args[next - 2]?).getD "").toList.drop done
      match described? c described.toList with
      | none =>
        if isQuiet then finish (p.set "OPTARG" letter) next done "?" 0
        else finish ((p.complain s!"Illegal option -{c}").unset "OPTARG") next done "?" 0
      | some false => finish (p.set "OPTARG" "") next done letter 0
      | some true =>
        match group, args[next - 1]? with
        | [], none =>
          if isQuiet then finish (p.set "OPTARG" letter) next done ":" 0
          else finish ((p.complain s!"No arg for -{c} option").unset "OPTARG") next done "?" 0
        | [], some value => finish (p.set "OPTARG" value) (next + 1) 0 letter 0
        | value, _ => finish (p.set "OPTARG" (String.ofList value)) next 0 letter 0
  | _ => p.refuse "getopts" "Usage: getopts optstring var [arg...]"

end Process

end FunctionJar.Shell
