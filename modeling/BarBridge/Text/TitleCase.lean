import BarBridge.Text.Alphabetic
import BarBridge.Text.LetterCase

/-!
# Title case

The first letter of every word is a capital and the others are small. Any character that is not
alphabetic, a digit or an apostrophe as much as a blank, begins a new word.
-/

namespace BarBridge.Text

/-- A text in title case, where `inWord` says whether an alphabetic character comes before it. -/
def titleFrom (inWord : Bool) : List Char → List Char
  | [] => []
  | c :: cs => (if inWord then lower c else upper c) ++ titleFrom (isAlphabetic c) cs

/-- A text in title case. -/
def titleCase (text : List Char) : List Char :=
  titleFrom false text

end BarBridge.Text
