import FunctionJar.Definition
import FunctionJar.Path
import FunctionJar.Source.Bracket
import FunctionJar.Source.Declaration

namespace FunctionJar.Jvm

inductive Language
  | java
  | scala
  deriving DecidableEq, Repr

namespace Language

def dialect : Language → Dialect
  | java => .java
  | scala => .scala

def extension : Language → String
  | java => "java"
  | scala => "scala"

def keywords : Language → List String
  | java => ["class"]
  | scala => ["class", "object"]

end Language

inductive Fault
  | lexical (f : Source.Fault)
  | undeclared (language : Language) (name : String)
  | wrongPackage (declared : Option String) (className : String) (expected : Option String)
  deriving DecidableEq, Repr

def packageName (p : Option String) : String := p.getD "<default>"

def Fault.message : Fault → String
  | lexical f => f.message
  | undeclared language name =>
    let keywords := Text.join " or " language.keywords
    s!"source does not declare {keywords} {name}"
  | wrongPackage declared className expected =>
    s!"source declares package {packageName declared} but class name {className} expects " ++
      packageName expected

def check (language : Language) (className source : String) : Except Fault Unit := do
  let code ← (Source.scan .curly source.toList).mapError Fault.lexical
  let name := ClassName.simple className
  if !Source.declares language.keywords name.toList code then throw (.undeclared language name)
  let declared := Source.declaredPackage code
  let expected := ClassName.package className
  if declared ≠ expected then throw (.wrongPackage declared className expected)

/-- Where the source of a class lies in its workspace, one folder for each part of the package. -/
def sourcePath (className extension : String) : String :=
  let folders := match ClassName.package className with
    | some package => ClassName.segments package
    | none => []
  Path.join (folders.foldl Path.join "src") (ClassName.simple className ++ "." ++ extension)

def classPath (className : String) : String := ClassName.slashed className ++ ".class"

end FunctionJar.Jvm
