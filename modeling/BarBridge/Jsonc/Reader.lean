import BarBridge.Jsonc.Comments
import BarBridge.Jsonc.Commas
import BarBridge.Json.Reader

/-!
# Reading a configuration text

A configuration is JSON with comments and dangling commas. It is first repaired into plain JSON,
comments before commas, so that a comment between a comma and its bracket hides nothing; then the
repaired text is read strictly. Text that the repair cannot mend is left as it is for the reader to
refuse.

A refusal is located in the repaired text: by line and column, by the byte they point to, and by the
text around that byte.
-/

namespace BarBridge.Jsonc

/-- The repaired text. -/
def sanitize (text : List Char) : List Char :=
  stripTrailingCommas (stripComments text)

/-- How many bytes of the text are shown on either side of a fault. -/
def contextRadius : Nat := 50

/-- A fault located in the repaired text. -/
structure Fault where
  reason : Json.Cause
  position : Text.Position
  /-- The byte that the position points to. -/
  offset : Nat
  context : List Char
  deriving Repr

/-- Locates a fault. -/
def Fault.locate (clean : List Char) (f : Json.Fault) : Fault :=
  let position := Text.positionAt clean f.index
  let offset := Text.offsetOf clean position
  ⟨f.cause, position, offset, Text.window clean offset contextRadius⟩

/-- Reads a configuration text. -/
def parse (text : List Char) : Except Fault Json :=
  let clean := sanitize text
  (Json.parse clean).mapError (Fault.locate clean)

end BarBridge.Jsonc
