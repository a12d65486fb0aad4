namespace FunctionJar.Shell

structure Cut where
  atStart : Bool
  longest : Bool
  deriving DecidableEq, Repr

inductive Otherwise
  | use
  | assign
  | fail
  | instead
  deriving DecidableEq, Repr

mutual

inductive Part
  | text (s : String) (isQuoted : Bool)
  | value (name : String) (isQuoted : Bool)
  | length (name : String) (isQuoted : Bool)
  | cut (name : String) (how : Cut) (pattern : List Part) (isQuoted : Bool)
  | otherwise (name : String) (what : Otherwise) (orEmpty : Bool) (word : List Part)
      (isQuoted : Bool)
  | arith (expression : List Part) (isQuoted : Bool)
  | output (script : Command) (isQuoted : Bool)
  | bad

/-- `input` reads from a file and `document` from the script itself, `output` and `append` write to
a file, `same` shares what another descriptor is about, and `close` gives a descriptor up. -/
inductive Redirect
  | input (descriptor : Nat) (word : List Part)
  | document (descriptor : Nat) (text : List Part)
  | output (descriptor : Nat) (forced : Bool) (word : List Part)
  | append (descriptor : Nat) (word : List Part)
  | same (descriptor : Nat) (word : List Part)
  | close (descriptor : Nat)

inductive Command
  | nothing
  | simple (line : Nat) (assignments : List (String × List Part)) (words : List (List Part))
      (redirects : List Redirect)
  | define (name : String) (body : Command)
  | seq (first second : Command)
  | and (first second : Command)
  | or (first second : Command)
  | not (command : Command)
  | pipe (source sink : Command)
  | background (command : Command)
  | cond (test yes no : Command)
  | loop (until_ : Bool) (test body : Command)
  | each (name : String) (words : Option (List (List Part))) (body : Command)
  | choose (word : List Part) (arms : List (List (List Part) × Command))
  | subshell (body : Command)
  | redirected (body : Command) (redirects : List Redirect)
  | broken (line : Nat) (text : String)

end

def isSpecial (name : String) : Bool :=
  [":", "exec", "exit", "return", "break", "continue", "export", "readonly", "set", "shift",
    "unset", "trap", "eval", ".", "times", "local"].contains name

def Redirect.descriptor : Redirect → Nat
  | input d _ | document d _ | output d _ _ | append d _ | same d _ | close d => d

end FunctionJar.Shell
