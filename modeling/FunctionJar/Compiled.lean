import FunctionJar.Definition
import FunctionJar.Text.Utf8
import FunctionJar.Total

namespace FunctionJar

open Text (Bytes)

structure Entry where
  path : String
  content : Bytes
  deriving DecidableEq, Repr

structure CompiledUnit where
  className : String
  dialect : Dialect
  entries : List Entry
  deriving DecidableEq, Repr

def CompiledUnit.size (u : CompiledUnit) : Nat := 
  total (fun e => e.content.length) u.entries

end FunctionJar
