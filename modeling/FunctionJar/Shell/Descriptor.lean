import FunctionJar.Shell.Process

namespace FunctionJar.Shell.Process

def source? (p : Process) (descriptor : Nat) : Option Text.Bytes :=
  if descriptor = 0 then some p.input else p.streams.inputs.lookup descriptor

def sink? (p : Process) (descriptor : Nat) : Option Sink :=
  match descriptor with
  | 1 => some p.streams.out
  | 2 => some p.streams.err
  | d => p.streams.sinks.lookup d

def without (p : Process) (descriptor : Nat) : Process :=
  { p with
    streams.inputs := p.streams.inputs.filter fun i => i.1 != descriptor
    streams.sinks := p.streams.sinks.filter fun s => s.1 != descriptor }

def withSource (p : Process) (descriptor : Nat) (bytes : Text.Bytes) : Process :=
  if descriptor = 0 then p.withInput bytes
  else
    let p := p.without descriptor
    { p with streams.inputs := (descriptor, bytes) :: p.streams.inputs }

def withSink (p : Process) (descriptor : Nat) (s : Sink) : Process :=
  match descriptor with
  | 1 => { p with streams.out := s }
  | 2 => { p with streams.err := s }
  | d =>
    let p := p.without d
    { p with streams.sinks := (d, s) :: p.streams.sinks }

def closing (p : Process) (descriptor : Nat) : Process :=
  match descriptor with
  | 0 => p.withInput []
  | 1 | 2 => p.withSink descriptor .closed
  | d => p.without d

/-- What one stream is about for another one too, if there is anything under its number. -/
def sharing? (p : Process) (descriptor other : Nat) : Option Process :=
  match p.source? other, p.sink? other with
  | some bytes, none => some (p.withSource descriptor bytes)
  | some bytes, some s =>
    some (if descriptor = 0 then p.withInput bytes else p.withSink descriptor s)
  | none, some .closed => none
  | none, some s => some (if descriptor = 0 then p.withInput [] else p.withSink descriptor s)
  | none, none => none

def sinkAt (p : Process) (operand : String) : Sink :=
  match operand with
  | "/dev/null" | "/dev/zero" => .nowhere
  | "/dev/stdout" | "/dev/fd/1" => p.streams.out
  | "/dev/stderr" | "/dev/fd/2" => p.streams.err
  | path => .file (p.path path)

def sharedInput? (before : Process) : Redirect → Option (Nat × Nat)
  | .same d [.text s _] =>
    match s.toList with
    | [c] =>
      let n := c.toNat - 48
      if (before.source? n).isSome ∧ n ≠ d then some (d, n) else none
    | _ => none
  | _ => none

def restoreStreams (p before : Process) (rs : List Redirect) : Process :=
  let isOurs (d : Nat) : Bool := rs.any fun r => r.descriptor == d
  let left (d : Nat) (bytes : Text.Bytes) : Text.Bytes :=
    if isOurs d then bytes else (p.source? d).getD bytes
  let restored : Process := { p with
    streams := { before.streams with
      input := left 0 before.input
      inputs := before.streams.inputs.map fun (d, bytes) => (d, left d bytes) } }
  (rs.filterMap before.sharedInput?).foldl (fun restored (d, n) =>
    match p.source? d with
    | some bytes => if isOurs n then restored else restored.withSource n bytes
    | none => restored) restored

end FunctionJar.Shell.Process
