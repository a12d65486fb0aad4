import FunctionJar.CommandLine.Run
import FunctionJar.Shell.Launcher

namespace FunctionJar.CommandLine

open Text (Bytes)

def lineBytes (lines : List String) : Bytes := lines.flatMap fun l => Text.utf8 (l ++ "\n")

def guest (launch : Variables → Launcher) (processors : Nat) (batch now : String) :
    Shell.Guest where
  name := programName
  answer v :=
    let here := (v.disk.resolve v.folder).toOption.getD v.disk.here
    let s : Surroundings := {
      launch := launch v.vars
      host := .ofVariables processors v.vars
      vars := v.vars
      disk := { v.disk with here := here }
      batch, now }
    let o := run s v.args
    ⟨o.exit, lineBytes o.out, lineBytes o.err, { o.disk with here := v.disk.here }⟩

def launcher (processors : Nat) (batch now : String) : Nat → Variables → Launcher
  | 0, vs => Shell.launcher none vs
  | depth + 1, vs =>
    Shell.launcher (some (guest (launcher processors batch now depth) processors batch now)) vs

end FunctionJar.CommandLine
