/-!
# What can be wrong with a JSON text

A fault is a cause and the number of bytes up to and including the one it is reported at: the first
byte of the offending character, the last byte of a text that ends too soon, or the last byte read
of an escape that names no character. The line and column shown to a user are derived from that
number and the text.
-/

namespace BarBridge.Json

inductive Cause where
  | endInValue
  | endInArray
  | endInObject
  | endInString
  | valueExpected
  | keywordExpected
  | colonExpected
  | itemEndExpected
  | memberEndExpected
  | keyExpected
  | danglingComma
  | furtherText
  | numeralMalformed
  | numeralTooLarge
  | escapeUnknown
  | surrogateAlone
  | surrogateCut
  | controlCharacter
  | nestedTooDeep
  deriving DecidableEq, Repr

structure Fault where
  cause : Cause
  index : Nat
  deriving DecidableEq, Repr

/-- The wording of a cause. -/
def Cause.message : Cause → String
  | endInValue => "EOF while parsing a value"
  | endInArray => "EOF while parsing a list"
  | endInObject => "EOF while parsing an object"
  | endInString => "EOF while parsing a string"
  | valueExpected => "expected value"
  | keywordExpected => "expected ident"
  | colonExpected => "expected `:`"
  | itemEndExpected => "expected `,` or `]`"
  | memberEndExpected => "expected `,` or `\x7d`"
  | keyExpected => "key must be a string"
  | danglingComma => "trailing comma"
  | furtherText => "trailing characters"
  | numeralMalformed => "invalid number"
  | numeralTooLarge => "number out of range"
  | escapeUnknown => "invalid escape"
  | surrogateAlone => "lone leading surrogate in hex escape"
  | surrogateCut => "unexpected end of hex escape"
  | controlCharacter => "control character (\\u0000-\\u001F) found while parsing a string"
  | nestedTooDeep => "recursion limit exceeded"

end BarBridge.Json
