import FunctionJar.CommandLine.Scan

namespace FunctionJar.CommandLine

structure BuildOptions where
  definitions : String
  config : Option String
  output : Option String
  workers : Option Nat
  unitTimeoutSecs : Option Nat
  jsonReport : Bool
  deriving DecidableEq, Repr

inductive Command
  | build (o : BuildOptions)
  | inspect (archive : String)
  deriving DecidableEq, Repr

structure Invocation where
  verbose : Bool
  json : Bool
  command : Command
  deriving DecidableEq, Repr

/-- Flags that may stand in front of the command as well as behind it. -/
def globalSpecs : List Spec :=
  [⟨"verbose", some 'v', .flag⟩, ⟨"json", none, .flag⟩, ⟨"help", some 'h', .halt .help⟩]

def topSpecs : List Spec := ⟨"version", some 'V', .halt .version⟩ :: globalSpecs

def buildSpecs : List Spec :=
  [⟨"definitions", some 'd', .path⟩, ⟨"config", some 'c', .path⟩, ⟨"output", some 'o', .path⟩,
    ⟨"workers", some 'w', .number⟩, ⟨"unit-timeout-secs", none, .number⟩,
    ⟨"json-report", none, .flag⟩] ++ globalSpecs

def number? (s : Scanned) (long : String) : Option Nat := (s.value? long).bind Text.count?

def buildCommand (s : Scanned) : Except Halt Command :=
  match s.value? "definitions" with
  | some definitions => .ok (.build {
      definitions
      config := s.value? "config"
      output := s.value? "output"
      workers := number? s "workers"
      unitTimeoutSecs := number? s "unit-timeout-secs"
      jsonReport := s.hasFlag "json-report" })
  | none => .error .usage

def inspectCommand (s : Scanned) : Except Halt Command :=
  match s.words with
  | archive :: _ => .ok (.inspect archive)
  | [] => .error .usage

/-- What there is help on: all, or one command. -/
def isTopic : List String → Bool
  | [] => true
  | [topic] => ["build", "inspect", "help"].contains topic
  | _ => false

def parse (args : List String) : Except Halt Invocation := do
  let (top, rest) ← scanFlags topSpecs .empty args
  let finish (s : Scanned) (c : Command) : Invocation :=
    ⟨top.hasFlag "verbose" || s.hasFlag "verbose", top.hasFlag "json" || s.hasFlag "json", c⟩
  match rest with
  | "build" :: rest =>
    let s ← scan buildSpecs [] .empty rest
    return finish s (← buildCommand s)
  | "inspect" :: rest =>
    let s ← scan globalSpecs [.path] .empty rest
    return finish s (← inspectCommand s)
  | "help" :: topics => throw (if isTopic topics then .help else .usage)
  | _ => throw .usage

end FunctionJar.CommandLine
