import BarBridge.Proofs.Artifact.Isolation
import BarBridge.Proofs.Json.Writing

/-!
# What is announced about widgets

The document of warnings is filled member by member, and a name that came up before would have its
messages put in the place of the earlier ones. That does not happen in the document of a
configuration: stems are different, so names are, and filling the document is the same as listing
its members (`warningsDocument_eq`). The file, if it is there, is read back as that list
(`warnings_announced`).

## When the file is there

No module can put its own file at the address of the document (`eq_of_mem_files`). So a file at that
address tells of a warning.
-/

namespace BarBridge

namespace ConvertedWidget

/-! ## The members of the document -/

/-- The member of a widget in the document of warnings. -/
def warningsMember (w : ConvertedWidget) : String × Json :=
  (w.name, .array (w.warnings.map fun x ↦ .string x.message))

theorem map_fst_warningsMember (ws : List ConvertedWidget) :
    (ws.map warningsMember).map Prod.fst = ws.map (·.name) := by
  rw [List.map_map]
  rfl

/-- Members with new names are put in at the end, one behind the other. The induction is on the
widgets still to be put in, with the members generalised. -/
theorem foldl_putWarnings {ws : List ConvertedWidget} (members : List (String × Json))
    (h : (members.map Prod.fst ++ ws.map (·.name)).Nodup) :
    ws.foldl putWarnings members = members ++ ws.map warningsMember := by
  induction ws generalizing members with
  | nil => exact (List.append_nil members).symm
  | cons w ws ih =>
    have hnew : w.name ∉ members.map Prod.fst := by
      intro hmem
      exact (List.nodup_append.mp h).2.2 w.name hmem w.name List.mem_cons_self rfl
    have hput : putWarnings members w = members ++ [w.warningsMember] :=
      Json.put_of_notMem _ hnew
    have hnames : ((members ++ [w.warningsMember]).map Prod.fst ++ ws.map (·.name)).Nodup := by
      rwa [List.map_append, List.append_assoc]
    rw [List.foldl_cons, hput, ih _ hnames, List.append_assoc]
    rfl

section

variable {ws : List ConvertedWidget} (h : (ws.map (·.name)).Nodup)

include h

theorem nodup_names_withWarnings : ((withWarnings ws).map (·.name)).Nodup :=
  (List.filter_sublist.map _).nodup h

/-- **Nothing is merged.** The document has a member for each widget that lost something. -/
theorem warningsDocument_eq :
    warningsDocument ws = .object ((withWarnings ws).map warningsMember) :=
  congrArg Json.object (foldl_putWarnings [] (nodup_names_withWarnings h))

theorem readable_warningsDocument (n : Nat) : Json.Readable (n + 2) (warningsDocument ws) := by
  rw [warningsDocument_eq h]
  refine .object ?_ fun m hm ↦ ?_
  · rw [map_fst_warningsMember]
    exact nodup_names_withWarnings h
  · obtain ⟨w, -, rfl⟩ := List.mem_map.mp hm
    refine .array fun v hv ↦ ?_
    obtain ⟨x, -, rfl⟩ := List.mem_map.mp hv
    exact .string x.message

theorem parse_warningsDocument :
    Json.parse (Artifact.document (warningsDocument ws)).toList =
      .ok (.object ((withWarnings ws).map warningsMember)) := by
  rw [Json.parse_document (readable_warningsDocument h _), warningsDocument_eq h]

end

/-! ## The file of the document -/

theorem eq_of_mem_files {ws : List ConvertedWidget} {a : Artifact} (ha : a ∈ files ws)
    (hpath : a.path = Address.warnings.path) :
    withWarnings ws ≠ [] ∧ a = Artifact.json Address.warnings.path (warningsDocument ws) := by
  rw [files, List.mem_append, List.mem_cons] at ha
  obtain (rfl | ha) | ha := ha
  · exact Address.noConfusion (Address.path_injective (a := .widgets) hpath)
  · obtain ⟨w, -, rfl⟩ := List.mem_map.mp ha
    rw [path_file] at hpath
    exact Address.noConfusion (Address.path_injective hpath)
  · split at ha
    · exact absurd ha List.not_mem_nil
    · next hwarned =>
      exact ⟨fun hnil ↦ hwarned (List.isEmpty_iff.mpr hnil), List.mem_singleton.mp ha⟩

theorem warningsDocument_mem_files {ws : List ConvertedWidget} (h : withWarnings ws ≠ []) :
    Artifact.json Address.warnings.path (warningsDocument ws) ∈ files ws := by
  refine List.mem_append_right _ ?_
  rw [if_neg fun hempty ↦ h (List.isEmpty_iff.mp hempty)]
  exact List.mem_singleton_self _

/-- **The file is there exactly if some widget lost something.** -/
theorem exists_mem_files_iff (ws : List ConvertedWidget) :
    (∃ a ∈ files ws, a.path = Address.warnings.path) ↔ withWarnings ws ≠ [] := by
  constructor
  · rintro ⟨a, ha, hpath⟩
    exact (eq_of_mem_files ha hpath).1
  · intro h
    exact ⟨_, warningsDocument_mem_files h, rfl⟩

theorem parse_of_mem_files {ws : List ConvertedWidget} (h : (ws.map (·.name)).Nodup)
    {a : Artifact} (ha : a ∈ files ws) (hpath : a.path = Address.warnings.path) :
    Json.parse a.contents.toList = .ok (.object ((withWarnings ws).map warningsMember)) := by
  obtain ⟨-, rfl⟩ := eq_of_mem_files ha hpath
  exact parse_warningsDocument h

end ConvertedWidget

/-! ## The warnings of a configuration -/

theorem withWarnings_convertWidgets (options : Options) (modules : List CustomModule) :
    ConvertedWidget.withWarnings (convertWidgets options modules) =
      (modules.filter fun m ↦
        Widget.warnings m (Command.ofModule m) options.defaultInterval ≠ []).map
          (ConvertedWidget.ofModule options) := by
  have hwarned : ∀ announced : List Warning, (!announced.isEmpty) = decide (announced ≠ []) := by
    intro announced
    cases announced <;> simp
  rw [ConvertedWidget.withWarnings, convertWidgets, List.filter_map]
  exact congrArg _ (List.filter_congr fun _ _ ↦ hwarned _)

theorem nodup_names_convertWidgets (config : Json) (options : Options) :
    ((convertWidgets options (extract config options)).map (·.name)).Nodup := by
  have hnames : (convertWidgets options (extract config options)).map (·.name) =
      (extract config options).map (·.name) := by
    rw [convertWidgets, List.map_map]
    rfl
  have hstems := nodup_stems_extract config options
  rw [hnames]
  refine .of_map fileStem ?_
  rwa [List.map_map]

/-- **No warning is lost.** Each module of a configuration becomes a widget under its name. There is
a file of warnings exactly if there is a warning, and it is read back as one member for each module
with warnings, in order, which holds all of them. -/
theorem warnings_announced (config : Json) (options : Options) :
    let modules := extract config options
    let widgets := convertWidgets options modules
    let announced (m : CustomModule) : List Warning :=
      Widget.warnings m (Command.ofModule m) options.defaultInterval
    let warned := modules.filter fun m ↦ announced m ≠ []
    widgets.map (fun w ↦ (w.name, w.widget)) =
        modules.map (fun m ↦ (m.name, Widget.ofModule m (Command.ofModule m))) ∧
      ((∃ a ∈ ConvertedWidget.files widgets, a.path = "widget_warnings.json") ↔
        ∃ m ∈ modules, announced m ≠ []) ∧
      (∀ a ∈ ConvertedWidget.files widgets, a.path = "widget_warnings.json" →
        Json.parse a.contents.toList = .ok (.object (warned.map fun m ↦
          (m.name, .array ((announced m).map fun x ↦ .string x.message))))) ∧
      (warned.map (·.name)).Nodup := by
  intro modules widgets announced warned
  have hwarned : ConvertedWidget.withWarnings widgets =
      warned.map (ConvertedWidget.ofModule options) :=
    withWarnings_convertWidgets options modules
  have hnames : (widgets.map (·.name)).Nodup := nodup_names_convertWidgets config options
  refine ⟨?_, ?_, ?_, ?_⟩
  · exact List.map_map
  · refine (ConvertedWidget.exists_mem_files_iff widgets).trans ?_
    rw [hwarned, Ne, List.map_eq_nil_iff, List.filter_eq_nil_iff]
    simp
  · intro a ha hpath
    rw [ConvertedWidget.parse_of_mem_files hnames ha hpath, hwarned, List.map_map]
    rfl
  · have hnodup := ConvertedWidget.nodup_names_withWarnings hnames
    rwa [hwarned, List.map_map] at hnodup

end BarBridge
