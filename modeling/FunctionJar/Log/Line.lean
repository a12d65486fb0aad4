import FunctionJar.Log.Batch
import FunctionJar.Log.Filter

namespace FunctionJar.Log

structure Style where
  json : Bool
  filter : Filter
  batch : String
  now : String

namespace Style

def span? (s : Style) (e : Event) : Option Span :=
  if e.inBatch then some (batchSpan s.batch) else none

def spanObj (s : Span) : Json :=
  .obj (s.fields.map (fun f => (f.1, .str f.2)) ++ [("name", .str s.name)])

def shown? (s : Style) (e : Event) : Option Span := (s.span? e).filter s.filter.enters

def jsonLine (s : Style) (e : Event) : String :=
  let span := (s.shown? e).toList.map fun p => ("span", spanObj p)
  Json.render (.obj ([("timestamp", .str s.now), ("level", .str e.level.name),
    ("fields", .obj e.fields), ("target", .str e.target)] ++ span))

def fieldText : String × Json → String
  | ("message", .str s) => s
  | (key, j) => s!"{key}={j.render}"

def textLine (s : Style) (e : Event) : String :=
  let span := String.join ((s.shown? e).toList.map fun p => " " ++ p.name ++ ":")
  s!"{s.now} {e.level.name}{span} " ++ Text.join " " (e.fields.map fieldText)

def line (s : Style) (e : Event) : String := if s.json then s.jsonLine e else s.textLine e

/-- The lines of the events that the filter lets through. -/
def lines (s : Style) (es : List Event) : List String :=
  (es.filter fun e => s.filter.reports (s.span? e) e).map s.line

end Style

end FunctionJar.Log
