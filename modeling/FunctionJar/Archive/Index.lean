import FunctionJar.Text.Blank
import FunctionJar.Text.Utf8

namespace FunctionJar.Archive

open Text (Bytes)

def manifestPath : String := "META-INF/MANIFEST.MF"

def indexPath : String := "META-INF/udf/classes.idx"

def manifest : Bytes :=
  Text.utf8 "Manifest-Version: 1.0\r\nCreated-By: udf-build\r\n\r\n"

def index (classes : List String) : Bytes := classes.flatMap fun c => Text.utf8 (c ++ "\n")

/-- The classes that an index lists. Blanks around a name and lines without one do not count. -/
def classesOf (index : String) : List String :=
  (((Text.lines index.toList).map Text.trim).filter (· ≠ [])).map String.ofList

end FunctionJar.Archive
