import BarBridge.Command.Filter
import BarBridge.Proofs.Json.Writing
import BarBridge.Proofs.Text.Base64
import BarBridge.Proofs.Text.ShellWord

/-!
# What a filter command carries

A filter command is a line of the shell that holds the command of the user and, as arguments of a
fixed program, a format and perhaps icons. All of this can be had back from the line alone
(`filters_carry_arguments`). The arguments are its last words, separated by spaces, for neither
base64 nor quoting brings a space into a word; the command stands between a fixed beginning and a
fixed remainder, and may itself hold spaces, quotes and anything else.

The reader below goes the way back: it takes the last words off the line, undoes quoting and base64,
and cuts the beginning and the remainder off what is left.
-/

namespace BarBridge.Filter

open Text

/-- What stands before the command of the user. -/
def opening : String :=
  "output=$("

/-- What stands between the command of the user and the arguments. -/
def remainder (program : String) : String :=
  "); printf '%s' \"$output\" | python3 -c " ++ shellQuote program

/-- The bytes that a word hands over. -/
def argument? (word : List Char) : Option (List UInt8) :=
  unquote? word >>= readBase64

/-- The command of the user and the arguments of the program in a line with a number of them. -/
def read? (program : String) (count : Nat) (line : String) : Option (String × List (List UInt8)) :=
  do
    let words := line.toList.splitOn ' '
    let arguments ← (words.drop (words.length - count)).mapM argument?
    let rest := [' '].intercalate (words.take (words.length - count))
    let exec ← (← rest.dropPrefix? opening.toList).dropSuffix? (remainder program).toList
    return (String.ofList exec, arguments)

/-- The icons in an argument. -/
def icons? (bytes : List UInt8) : Option (List String) := do
  match (Json.parse (← ofUtf8 bytes).toList).toOption with
  | some (.array items) => items.mapM Json.string?
  | _ => none

/-! ## Words -/

theorem space_notMem_argument (value : List Char) : ' ' ∉ (argument value).toList := by
  refine notMem_shellQuote (by decide) (by decide) ?_
  rw [String.toList_ofList]
  exact space_notMem_base64 _

theorem argument?_argument (value : List Char) :
    argument? (argument value).toList = some (utf8 value) := by
  rw [argument?, argument, unquote?_shellQuote, String.toList_ofList]
  exact readBase64_base64 _

/-- Further words of a line, each behind a space. -/
def spaced (words : List (List Char)) : List Char :=
  words.flatMap (' ' :: ·)

theorem splitOn_append_spaced (line : List Char) {words : List (List Char)}
    (h : ∀ w ∈ words, ' ' ∉ w) :
    (line ++ spaced words).splitOn ' ' = line.splitOn ' ' ++ words := by
  induction words generalizing line with
  | nil => simp [spaced]
  | cons w words ih =>
    rw [List.forall_mem_cons] at h
    have hcons : line ++ spaced (w :: words) = (line ++ ' ' :: w) ++ spaced words := by
      simp [spaced]
    rw [hcons, ih _ h.2, List.splitOn_append_cons_self, List.splitOn_eq_singleton h.1,
      List.append_assoc]
    rfl

/-! ## Lines

The program fixes how many arguments there are. So they can be taken off the end of the line,
whatever spaces the command in front of them has. -/

/-- The line of a program with its arguments behind the command of the user. -/
def line (program exec : String) (values : List (List Char)) : List Char :=
  opening.toList ++ exec.toList ++ (remainder program).toList ++
    spaced (values.map fun v ↦ (argument v).toList)

theorem capture_append (program exec : String) :
    capture exec ++ " " ++ shellQuote program = opening ++ exec ++ remainder program := by
  have hspace : "); printf '%s' \"$output\" | python3 -c " =
    "); printf '%s' \"$output\" | python3 -c" ++ " " := rfl
  unfold capture opening remainder
  simp only [hspace, String.append_assoc]

theorem spaced_cons (w : List Char) (words : List (List Char)) :
    spaced (w :: words) = " ".toList ++ w ++ spaced words := rfl

theorem toList_json (exec format : String) (icons : List String) :
    (json exec format icons).toList = line jsonProgram exec [iconList icons, format.toList] := by
  rw [json, capture_append, line, List.map_cons, List.map_cons, List.map_nil, spaced_cons,
    spaced_cons, spaced, List.flatMap_nil]
  simp only [String.toList_append, List.append_assoc, List.append_nil]

theorem toList_plain (exec format : String) :
    (plain exec format).toList = line plainProgram exec [format.toList] := by
  rw [plain, capture_append, line, List.map_cons, List.map_nil, spaced_cons, spaced,
    List.flatMap_nil]
  simp only [String.toList_append, List.append_assoc, List.append_nil]

theorem mapM_argument? (values : List (List Char)) :
    (values.map fun v ↦ (argument v).toList).mapM argument? = some (values.map utf8) := by
  induction values with
  | nil => rfl
  | cons v values ih =>
    rw [List.map_cons, List.mapM_cons, argument?_argument, ih]
    rfl

/-- **A line is read back**, whatever its command and its arguments are. -/
theorem read?_of_line {program exec text : String} {values : List (List Char)}
    (h : text.toList = line program exec values) :
    read? program values.length text = some (exec, values.map utf8) := by
  have hspace : ∀ w ∈ values.map fun v ↦ (argument v).toList, ' ' ∉ w := by
    intro w hw
    obtain ⟨v, -, rfl⟩ := List.mem_map.mp hw
    exact space_notMem_argument v
  have hopening : (opening.toList ++ exec.toList ++ (remainder program).toList).dropPrefix?
      opening.toList = some (exec.toList ++ (remainder program).toList) := by
    rw [List.append_assoc]
    exact List.dropPrefix?_append_of_beq _ (beq_self_eq_true _)
  have hremainder : (exec.toList ++ (remainder program).toList).dropSuffix?
      (remainder program).toList = some exec.toList :=
    List.dropSuffix?_eq_some_iff.mpr ⟨_, rfl, beq_self_eq_true _⟩
  rw [read?, h, line, splitOn_append_spaced _ hspace, List.length_append, List.length_map,
    Nat.add_sub_cancel, List.drop_left, List.take_left, mapM_argument?, List.intercalate_splitOn]
  simp only [Option.bind_eq_bind, Option.bind_some, hopening, hremainder, String.ofList_toList]
  rfl

/-! ## Icons -/

theorem mapM_string? (icons : List String) :
    (icons.map Json.string).mapM Json.string? = some icons := by
  induction icons with
  | nil => rfl
  | cons icon icons ih =>
    rw [List.map_cons, List.mapM_cons, ih]
    rfl

theorem icons?_iconList (icons : List String) : icons? (utf8 (iconList icons)) = some icons := by
  have hreadable : Json.Readable Json.depthLimit (.array (icons.map .string)) := by
    refine .array fun v hv ↦ ?_
    obtain ⟨s, -, rfl⟩ := List.mem_map.mp hv
    exact .string s
  have htext : ofUtf8 (utf8 (iconList icons)) = some (String.ofList (iconList icons)) := by
    rw [← ofUtf8_utf8, String.toList_ofList]
  rw [icons?, htext]
  simp only [Option.bind_eq_bind, Option.bind_some, String.toList_ofList]
  rw [iconList, Json.parse_compact hreadable]
  exact mapM_string? icons

/-! ## Both filters

That different arguments give different lines needs no argument of its own: a line that can be read
back by a function comes from one command and one list of arguments. -/

theorem utf8_injective {s t : String} (h : utf8 s.toList = utf8 t.toList) : s = t := by
  have htext := congrArg ofUtf8 h
  rw [ofUtf8_utf8, ofUtf8_utf8] at htext
  exact Option.some.inj htext

theorem iconList_injective {icons icons' : List String}
    (h : utf8 (iconList icons) = utf8 (iconList icons')) : icons = icons' := by
  have hicons := congrArg icons? h
  rw [icons?_iconList, icons?_iconList] at hicons
  exact Option.some.inj hicons

theorem read?_json (exec format : String) (icons : List String) :
    read? jsonProgram 2 (json exec format icons) =
      some (exec, [utf8 (iconList icons), utf8 format.toList]) := by
  have hread := read?_of_line (toList_json exec format icons)
  exact hread

theorem read?_plain (exec format : String) :
    read? plainProgram 1 (plain exec format) = some (exec, [utf8 format.toList]) := by
  have hread := read?_of_line (toList_plain exec format)
  exact hread

/-- **A filter command carries its arguments intact.** From the line of either filter the command of
the user can be read back, and so can the arguments: the icons as the text of a list, and the format
byte by byte. Hence different arguments give different lines. -/
theorem filters_carry_arguments :
    (∀ exec format icons, ∃ list,
      read? jsonProgram 2 (json exec format icons) = some (exec, [list, utf8 format.toList]) ∧
        icons? list = some icons) ∧
      (∀ exec format,
        read? plainProgram 1 (plain exec format) = some (exec, [utf8 format.toList])) ∧
      (∀ exec format icons exec' format' icons',
        json exec format icons = json exec' format' icons' →
          exec = exec' ∧ format = format' ∧ icons = icons') ∧
      ∀ exec format exec' format', plain exec format = plain exec' format' →
        exec = exec' ∧ format = format' := by
  refine ⟨fun exec format icons ↦ ⟨_, read?_json exec format icons, icons?_iconList icons⟩,
    read?_plain, ?_, ?_⟩
  · intro exec format icons exec' format' icons' h
    have hread := congrArg (read? jsonProgram 2) h
    rw [read?_json, read?_json, Option.some.injEq, Prod.mk.injEq, List.cons.injEq,
      List.cons.injEq] at hread
    obtain ⟨hexec, hicons, hformat, -⟩ := hread
    exact ⟨hexec, utf8_injective hformat, iconList_injective hicons⟩
  · intro exec format exec' format' h
    have hread := congrArg (read? plainProgram 1) h
    rw [read?_plain, read?_plain, Option.some.injEq, Prod.mk.injEq, List.cons.injEq] at hread
    exact ⟨hread.1, utf8_injective hread.2.1⟩

end BarBridge.Filter
