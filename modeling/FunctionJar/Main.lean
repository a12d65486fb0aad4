import FunctionJar.CommandLine.Guest
import FunctionJar.Disk.Files

namespace FunctionJar.CommandLine

def Command.sources : Command → List String
  | .build o => o.definitions :: o.config.toList
  | .inspect archive => [archive]

def sources (args : List String) : List String :=
  match parse args with
  | .ok i => i.command.sources
  | .error _ => []

/-- The parts of a list of bytes that zeros stand between. -/
def entriesOf (bytes : Text.Bytes) : List Text.Bytes :=
  let add (b : UInt8) (entries : List Text.Bytes) : List Text.Bytes :=
    if b = 0 then [] :: entries else (b :: entries.headD []) :: entries.tail
  bytes.foldr add []

def variablesOf (bytes : Text.Bytes) : Variables :=
  (entriesOf bytes).filterMap fun entry => do
    let name ← Text.decode? (entry.takeWhile (· != '='.toUInt8))
    if name.utf8ByteSize < entry.length then some (name, entry.drop (name.utf8ByteSize + 1))
    else none

def readVariables : IO Variables := do
  return variablesOf (← IO.FS.readBinFile "/proc/self/environ").toList

def readSources (paths : List String) : IO (List (String × Text.Bytes)) := do
  let read (path : String) : IO (Option (String × Text.Bytes)) := do
    try
      return some (path, (← IO.FS.readBinFile path).toList)
    catch _ => return none
  return (← paths.mapM read).reduceOption

def deepest : Nat := 8

def writeFiles (files : List (String × Text.Bytes)) : IO Unit := do
  for (path, content) in files do
    IO.FS.createDirAll (Path.folder path)
    IO.FS.writeBinFile path (ByteArray.mk content.toArray)

end FunctionJar.CommandLine

open FunctionJar CommandLine

def main (args : List String) : IO UInt32 := do
  let vs ← readVariables
  let host : Host := .ofVariables 1 vs
  let here := toString (← IO.currentDir)
  let disk := Disk.ofFiles here [host.temporary] (← readSources (sources args))
  let batch := toString (← IO.rand 0 (Nat.pow 2 64))
  let now := toString (← IO.monoMsNow)
  let o := run ⟨launcher 1 batch now deepest vs, host, vs, disk, batch, now⟩ args
  writeFiles (Disk.written disk o.disk)
  for line in o.err do IO.eprintln line
  for line in o.out do IO.println line
  return UInt32.ofNat o.exit
