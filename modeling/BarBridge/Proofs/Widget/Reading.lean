import BarBridge.Proofs.Json.Writing
import BarBridge.Widget.Document

/-!
# Reading a widget back

A widget is written with what is not set left out, so the reader of its file finds a member or none.
`table` has every key that a widget can have, each with its value if there is one. The document is
the table without the empty entries (`toJson_eq`), and what the reader finds under a key is the
entry of the table (`member?_document`).

Keys of a table are different whatever the widget is. That makes the look-up one in the table, and
it makes the document one that is read back.
-/

namespace BarBridge.Widget

/-! ## Tables with empty entries

An empty entry is found like a missing one, as long as the keys are different. Otherwise leaving it
out would let another entry of the same key be found. -/

/-- The members of a table, empty entries left out. -/
def present (t : List (String × Option Json)) : List (String × Json) :=
  t.filterMap fun (key, v) ↦ v.map fun v ↦ (key, v)

theorem present_append (t u : List (String × Option Json)) :
    present (t ++ u) = present t ++ present u :=
  List.filterMap_append

theorem present_cons_none (key : String) (t : List (String × Option Json)) :
    present ((key, none) :: t) = present t :=
  rfl

theorem present_cons_some (key : String) (v : Json) (t : List (String × Option Json)) :
    present ((key, some v) :: t) = (key, v) :: present t :=
  rfl

theorem keys_present_sublist (t : List (String × Option Json)) :
    ((present t).map Prod.fst).Sublist (t.map Prod.fst) := by
  induction t with
  | nil => exact .slnil
  | cons entry t ih =>
    obtain ⟨key, _ | v⟩ := entry
    · exact ih.cons key
    · exact ih.cons_cons key

theorem lookup_present {t : List (String × Option Json)} (h : (t.map Prod.fst).Nodup)
    (key : String) : (present t).lookup key = (t.lookup key).join := by
  induction t with
  | nil => rfl
  | cons entry t ih =>
    obtain ⟨key', v⟩ := entry
    obtain ⟨hnotMem, hnodup⟩ := List.nodup_cons.mp h
    by_cases hkey : key = key'
    · subst hkey
      cases v with
      | none =>
        -- Nothing else stands under the key of an empty entry.
        have hnone : (present t).lookup key = none := by
          refine List.lookup_eq_none_iff.mpr fun m hm ↦ bne_iff_ne.mpr ?_
          rintro rfl
          exact hnotMem ((keys_present_sublist t).subset (List.mem_map_of_mem hm))
        rw [present_cons_none, hnone, List.lookup_cons_self]
        rfl
      | some v =>
        rw [present_cons_some, List.lookup_cons_self, List.lookup_cons_self]
        rfl
    · have hne : (key == key') = false := beq_eq_false_iff_ne.mpr hkey
      cases v with
      | none => rw [present_cons_none, ih hnodup, List.lookup_cons, hne]
      | some v => rw [present_cons_some, List.lookup_cons, hne, ih hnodup, List.lookup_cons, hne]

theorem readable_present {n : Nat} {t : List (String × Option Json)}
    (hkeys : (t.map Prod.fst).Nodup)
    (hvalues : ∀ entry ∈ t, ∀ v ∈ entry.2, Json.Readable n v) :
    Json.Readable (n + 1) (.object (present t)) := by
  refine .object ((keys_present_sublist t).nodup hkeys) fun m hm ↦ ?_
  obtain ⟨⟨key, v⟩, hentry, hv⟩ := List.mem_filterMap.mp hm
  obtain ⟨v, rfl, rfl⟩ := Option.map_eq_some_iff.mp hv
  exact hvalues _ hentry v rfl

/-! ## The table of a widget -/

/-- The entry of a member that is written only where it holds. -/
def ifHolds (b : Bool) : Option Json :=
  if b then some (.bool true) else none

/-- The entry for a command. -/
def commandOf (a : Option Action) : Option Json :=
  a.map fun a ↦ .string a.exec

/-- Every key of a widget, with its value if it is written. -/
def table (w : Widget) : List (String × Option Json) := [
  ("type", some (.string "CustomButton")),
  ("textCommand", some (.string w.textCommand)),
  ("textStream", ifHolds w.textStream),
  ("textIntervalMs", w.textIntervalMs.map ofUInt64),
  ("parseJson", ifHolds w.parseJson),
  ("leftClickExec", commandOf w.leftClick),
  ("leftClickUpdateText", ifHolds (updates w.leftClick)),
  ("rightClickExec", commandOf w.rightClick),
  ("rightClickUpdateText", ifHolds (updates w.rightClick)),
  ("middleClickExec", commandOf w.middleClick),
  ("middleClickUpdateText", ifHolds (updates w.middleClick)),
  ("wheelUpExec", commandOf w.wheelUp),
  ("wheelDownExec", commandOf w.wheelDown),
  ("wheelMode", if w.wheelUp.isSome || w.wheelDown.isSome then some (.string "separate") else none),
  ("wheelUpUpdateText", ifHolds (updates w.wheelUp)),
  ("wheelDownUpdateText", ifHolds (updates w.wheelDown)),
  ("maxTextLength", w.maxText.map ofLimit)]

theorem nodup_keys_table (w : Widget) : (w.table.map Prod.fst).Nodup := by
  simp only [table, List.map_cons, List.map_nil]
  decide

theorem flag_eq (key : String) (b : Bool) : flag key b = present [(key, ifHolds b)] := by
  cases b <;> rfl

theorem optional_eq {α : Type} (key : String) (f : α → Json) (v : Option α) :
    optional key f v = present [(key, v.map f)] := by
  cases v <;> rfl

/-- **The document is the table without its empty entries.** -/
theorem toJson_eq (w : Widget) : w.toJson = .object (present w.table) := by
  have hmode : (if w.wheelUp.isSome || w.wheelDown.isSome then
      [("wheelMode", Json.string "separate")] else []) = present [("wheelMode",
        if w.wheelUp.isSome || w.wheelDown.isSome then some (.string "separate") else none)] := by
    split <;> rfl
  have htype : [("type", Json.string "CustomButton"), ("textCommand", .string w.textCommand)] =
      present [("type", some (.string "CustomButton")),
        ("textCommand", some (.string w.textCommand))] :=
    rfl
  simp only [toJson, click, wheel, flag_eq, optional_eq, hmode, htype, ← present_append]
  rfl

theorem readable_toJson (n : Nat) (w : Widget) : Json.Readable (n + 2) w.toJson := by
  have hholds : ∀ b, ∀ v ∈ ifHolds b, Json.Readable (n + 1) v := by
    intro b v hv
    cases b with
    | false => exact nomatch hv
    | true =>
      obtain rfl := Option.some.inj hv
      exact .bool true
  have hcommand : ∀ a, ∀ v ∈ commandOf a, Json.Readable (n + 1) v := by
    intro a v hv
    obtain ⟨a, -, rfl⟩ := Option.map_eq_some_iff.mp hv
    exact .string a.exec
  have hlimit : ∀ l, Json.Readable (n + 1) (ofLimit l) := by
    intro l
    have hlength : ∀ length : UInt32, Json.Readable n (ofUInt32 length) := fun length ↦
      .int (by omega) (by exact_mod_cast Nat.lt_trans length.toNat_lt (by decide))
    refine .object (by simp) ?_
    simp only [List.forall_mem_cons]
    exact ⟨hlength _, hlength _, List.forall_mem_nil _⟩
  rw [toJson_eq]
  refine readable_present (nodup_keys_table w) ?_
  simp only [table, List.forall_mem_cons]
  refine ⟨?_, ?_, hholds _, ?_, hholds _, hcommand _, hholds _, hcommand _, hholds _, hcommand _,
    hholds _, hcommand _, hcommand _, ?_, hholds _, hholds _, ?_, List.forall_mem_nil _⟩
  · rintro v ⟨⟩
    exact .string _
  · rintro v ⟨⟩
    exact .string _
  · intro v hv
    obtain ⟨ms, -, rfl⟩ := Option.map_eq_some_iff.mp hv
    exact .int (by omega) (by exact_mod_cast ms.toNat_lt)
  · intro v hv
    split at hv
    · obtain rfl := Option.some.inj hv
      exact .string _
    · exact nomatch hv
  · intro v hv
    obtain ⟨l, -, rfl⟩ := Option.map_eq_some_iff.mp hv
    exact hlimit l

/-! ## Reading -/

/-- A member of the object that a text holds. -/
def member? (text key : String) : Option Json := do
  let document ← (Json.parse text.toList).toOption
  (← document.object?).lookup key

/-- **A widget is read back.** What the file holds under a key is the entry of the table. -/
theorem member?_document (w : Widget) (key : String) :
    member? (Artifact.document w.toJson) key = (w.table.lookup key).join := by
  rw [member?, Json.parse_document (readable_toJson _ w), toJson_eq]
  exact lookup_present (nodup_keys_table w) key

end BarBridge.Widget
