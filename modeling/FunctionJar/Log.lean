import FunctionJar.Json.Value

namespace FunctionJar.Log

inductive Level
  | error
  | warn
  | info
  | debug
  | trace
  deriving DecidableEq, Repr

namespace Level

def name : Level → String
  | error => "ERROR"
  | warn => "WARN"
  | info => "INFO"
  | debug => "DEBUG"
  | trace => "TRACE"

/-- How much is reported at this level; each level reports all that the ones before it do. -/
def rank : Level → Nat
  | error => 1
  | warn => 2
  | info => 3
  | debug => 4
  | trace => 5

end Level

structure Span where
  name : String
  target : String
  level : Level
  fields : List (String × String)

structure Event where
  level : Level
  target : String
  fields : List (String × Json)
  inBatch : Bool

end FunctionJar.Log
