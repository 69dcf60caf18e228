/-!
# Texts of several lines

Longer fixed texts are given as lists of lines, each of which is ended by a line feed, the last one
too.
-/

namespace BarBridge.Text

/-- The text of the given lines. -/
def ofLines (lines : List String) : String :=
  String.ofList (lines.flatMap fun line ↦ line.toList ++ ['\n'])

theorem toList_ofLines (lines : List String) :
    (ofLines lines).toList = lines.flatMap fun line ↦ line.toList ++ ['\n'] :=
  String.toList_ofList

end BarBridge.Text
