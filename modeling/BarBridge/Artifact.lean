import BarBridge.Json.Writer

/-!
# Artifacts

An artifact is a file to be written: a path relative to the output directory, and its contents. A
JSON artifact holds a document in the pretty form, with a line feed at its end.
-/

namespace BarBridge

structure Artifact where
  path : String
  contents : String
  deriving DecidableEq, Repr

namespace Artifact

/-- A document as the contents of a file. -/
def document (v : Json) : String :=
  String.ofList (v.pretty ++ ['\n'])

/-- A file that holds a document. -/
def json (path : String) (v : Json) : Artifact :=
  ⟨path, document v⟩

end Artifact

end BarBridge
