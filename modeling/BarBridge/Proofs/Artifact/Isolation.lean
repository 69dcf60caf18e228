import BarBridge.Proofs.Artifact.Addresses
import BarBridge.Proofs.Module.Surroundings
import BarBridge.Report

/-!
# Modules do not interfere

What a configuration is converted to is made module by module, so that a change to the object of one
module can only show in what is made from that module. This is the place where that is put to the
test: two conversions are compared whose configurations have the same surroundings and differ in the
object under one key (`modules_isolated`).

Two documents are made from all modules at once. In the document of widgets the module has an entry
of its own. The document of warnings is filled member by member, and a member that is put in place
leaves the others alone (`others_put`). So all members but the one under the name of the module come
out the same, whether or not that one is there.
-/

namespace BarBridge

/-! ## What a configuration is converted to -/

/-- All that is made of a configuration. -/
structure Products where
  modules : List CustomModule
  widgets : List ConvertedWidget
  plugins : List Plugin
  reports : List Report

namespace Products

/-- The conversion of a configuration. -/
def ofConfig (config : Json) (options : Options) : Except Template.Fault Products := do
  let modules := extract config options
  let plugins ← modules.mapM (Plugin.ofModule · options.defaultInterval)
  return {
    modules
    widgets := convertWidgets options modules
    plugins
    reports := modules.map (Report.ofModule · options) }

def files (p : Products) : List Artifact :=
  ConvertedWidget.files p.widgets ++ p.plugins.flatMap (·.files)

/-- What a file is to hold, if it is one of those made. -/
def contents? (p : Products) (path : String) : Option String :=
  (p.files.find? (·.path = path)).map (·.contents)

/-- The name of the module at a place. -/
def nameAt (p : Products) (place : Option Nat) : Option String :=
  (atPlace place p.modules).map (·.name)

end Products

/-- The members of a document other than the one under a name. -/
def others (own : Option String) (members : List (String × Json)) : List (String × Json) :=
  members.filter fun m ↦ some m.1 ≠ own

/-- The addresses of what is made from a module of the given name, or from all modules. -/
def Address.IsMadeFrom (own : Option String) : Address → Prop
  | .widgets => True
  | .warnings => True
  | .widget stem => own.map Stem.ofName = some stem
  | .plugin stem _ => own.map Stem.ofName = some stem

/-- Two conversions that differ at most in what is made from the module at one place. -/
structure Isolated (place : Option Nat) (p p' : Products) : Prop where
  /-- Modules are written under the same names. -/
  names : p.modules.map (·.name) = p'.modules.map (·.name)
  modules : AgreeBut place p.modules p'.modules
  /-- Widgets, with what is announced about them. -/
  widgets : AgreeBut place p.widgets p'.widgets
  plugins : AgreeBut place p.plugins p'.plugins
  reports : AgreeBut place p.reports p'.reports
  /-- The document of widgets differs at most in the entry at the place. -/
  document : ∃ head entries entries', AgreeBut place entries entries' ∧
    p.contents? Address.widgets.path =
      some (Artifact.document (.object (head ++ [("widgets", .array entries)]))) ∧
    p'.contents? Address.widgets.path =
      some (Artifact.document (.object (head ++ [("widgets", .array entries')])))
  /-- The document of warnings, absent where it would be empty, differs at most in the member under
  the name of the module. -/
  warnings : ∃ members members', others (p.nameAt place) members =
      others (p.nameAt place) members' ∧
    p.contents? Address.warnings.path =
      (if members.isEmpty then none else some (Artifact.document (.object members))) ∧
    p'.contents? Address.warnings.path =
      (if members'.isEmpty then none else some (Artifact.document (.object members')))
  /-- All other files are the same. -/
  elsewhere : ∀ path, (∀ a : Address, a.IsMadeFrom (p.nameAt place) → path ≠ a.path) →
    p.contents? path = p'.contents? path

/-! ## The document of warnings

A member is put in place of one with the same key, or else at the end. Leaving out the members of
one name commutes with this, whether or not a name occurs twice, and so it goes through the fold
that makes the document. -/

theorem others_cons (own : Option String) (m : String × Json) (ms : List (String × Json)) :
    others own (m :: ms) = if some m.1 = own then others own ms else m :: others own ms := by
  by_cases hm : some m.1 = own
  · rw [others, List.filter_cons_of_neg (by simpa using hm), if_pos hm, others]
  · rw [others, List.filter_cons_of_pos (by simpa using hm), if_neg hm, others]

theorem others_put (own : Option String) (key : String) (v : Json)
    (members : List (String × Json)) :
    others own (Json.put key v members) =
      if some key = own then others own members else Json.put key v (others own members) := by
  induction members with
  | nil => exact others_cons own (key, v) []
  | cons m ms ih =>
    by_cases hm : m.1 = key
    · rw [Json.put, if_pos hm, others_cons, others_cons, hm]
      by_cases hown : some key = own
      · rw [if_pos hown, if_pos hown, if_pos hown]
      · rw [if_neg hown, if_neg hown, if_neg hown, Json.put, if_pos hm]
    · rw [Json.put, if_neg hm, others_cons, others_cons, ih]
      by_cases hown : some key = own
      · rw [if_pos hown, if_pos hown]
      · rw [if_neg hown, if_neg hown]
        by_cases hmo : some m.1 = own
        · rw [if_pos hmo, if_pos hmo]
        · rw [if_neg hmo, if_neg hmo, Json.put, if_neg hm]

namespace ConvertedWidget

/-- The messages of a widget as a member of the document. -/
def putWarnings (members : List (String × Json)) (w : ConvertedWidget) : List (String × Json) :=
  Json.put w.name (.array (w.warnings.map fun x ↦ .string x.message)) members

/-- A module leaves no trace among the members of others. The induction is on the widgets still to
be put in, with the members generalised. -/
theorem others_foldl (own : Option String) (ws : List ConvertedWidget)
    (members : List (String × Json)) :
    others own (ws.foldl putWarnings members) =
      (ws.filter fun w ↦ some w.name ≠ own).foldl putWarnings (others own members) := by
  induction ws generalizing members with
  | nil => rfl
  | cons w ws ih =>
    rw [List.foldl_cons, ih, putWarnings, others_put, List.filter_cons]
    by_cases hw : some w.name = own
    · rw [if_pos hw, if_neg (by simpa using hw)]
    · rw [if_neg hw, if_pos (by simpa using hw)]
      rfl

theorem isEmpty_foldl (ws : List ConvertedWidget) :
    (ws.foldl putWarnings []).isEmpty = ws.isEmpty := by
  have hput : ∀ (w : ConvertedWidget) members, (putWarnings members w).isEmpty = false := by
    intro w members
    rcases members with _ | ⟨m, ms⟩
    · rfl
    · rw [putWarnings, Json.put]
      split <;> rfl
  induction ws using List.reverseRecOn with
  | nil => rfl
  | append_singleton ws w ih =>
    rw [List.foldl_append, List.foldl_cons, List.foldl_nil, hput]
    simp

end ConvertedWidget

/-! ## Conversions of lists that agree but at one place

A file is looked for by its path among all that are made. A path that belongs to another module is
that of none of the files that the two conversions do not share, and in what is left of the search
the two are equal. -/

section

variable {options : Options} {plugin : CustomModule → Plugin} {place : Option Nat}
  {modules modules' : List CustomModule}

/-- What is made of modules, given the plugin of each. -/
def Products.ofModules (options : Options) (plugin : CustomModule → Plugin)
    (modules : List CustomModule) : Products where
  modules
  widgets := convertWidgets options modules
  plugins := modules.map plugin
  reports := modules.map (Report.ofModule · options)

theorem Products.ofConfig_eq
    (hplugin : ∀ m, Plugin.ofModule m options.defaultInterval = .ok (plugin m)) (config : Json) :
    Products.ofConfig config options = .ok (.ofModules options plugin (extract config options)) := by
  have hmap : (extract config options).mapM (Plugin.ofModule · options.defaultInterval) =
      .ok ((extract config options).map plugin) := by
    simp only [hplugin]
    exact List.mapM_pure
  rw [Products.ofConfig, hmap]
  rfl

/-- The files of a plugin go to its own addresses. -/
def Plugin.Addressed (name : String) (p : Plugin) : Prop :=
  p.files.map (·.path) = (PluginFile.all.map (Address.plugin (.ofName name))).map (·.path)

theorem exists_plugin (interval : UInt64) : ∃ plugin : CustomModule → Plugin, ∀ m,
    Plugin.ofModule m interval = .ok (plugin m) ∧ Plugin.Addressed m.name (plugin m) := by
  have hplugin : ∀ m, ∃ p, Plugin.ofModule m interval = .ok p ∧ Plugin.Addressed m.name p := by
    intro m
    obtain ⟨main, bar, settings, readme, hplugin, -⟩ := Plugin.exists_assembled m interval
    exact ⟨_, hplugin, path_assembled m _ main bar settings readme⟩
  exact ⟨fun m ↦ (hplugin m).choose, fun m ↦ (hplugin m).choose_spec⟩

theorem ConvertedWidget.path_file (w : ConvertedWidget) :
    w.file.path = (Address.widget (.ofName w.name)).path :=
  rfl

theorem filter_cons_of_path_ne {a : Artifact} {path : String} (h : path ≠ a.path)
    (l : List Artifact) : (a :: l).filter (·.path = path) = l.filter (·.path = path) := by
  refine List.filter_cons_of_neg ?_
  rw [decide_eq_true_iff]
  exact h.symm

theorem Plugin.filter_files {name : String} {p : Plugin} (hp : Plugin.Addressed name p)
    {path : String} (h : ∀ f, path ≠ (Address.plugin (.ofName name) f).path) :
    p.files.filter (·.path = path) = [] := by
  refine List.filter_eq_nil_iff.mpr fun a ha ↦ ?_
  have hmem : a.path ∈ p.files.map (·.path) := List.mem_map_of_mem ha
  rw [hp, List.map_map] at hmem
  obtain ⟨f, -, hf⟩ := List.mem_map.mp hmem
  rw [decide_eq_true_iff]
  exact fun hpath ↦ h f (hpath.symm.trans hf.symm)

theorem ConvertedWidget.exists_document : ∃ head, ∀ ws, document ws =
    .object (head ++ [("widgets", .array (ws.map (·.widget.toJson)))]) :=
  ⟨[_, _], fun _ ↦ rfl⟩

/-- The document of warnings as a file, if there is one. -/
def ConvertedWidget.warningsFile (ws : List ConvertedWidget) : List Artifact :=
  if (withWarnings ws).isEmpty then []
  else [Artifact.json Address.warnings.path (warningsDocument ws)]

theorem Products.contents?_widgets (p : Products) :
    p.contents? Address.widgets.path =
      some (Artifact.document (ConvertedWidget.document p.widgets)) :=
  rfl

theorem Products.contents?_of_ne (p : Products) {path : String} (h : path ≠ Address.widgets.path) :
    p.contents? path =
      ((p.widgets.flatMap (fun w ↦ [w.file].filter (·.path = path)) ++
        (ConvertedWidget.warningsFile p.widgets).filter (·.path = path) ++
        p.plugins.flatMap (fun q ↦ q.files.filter (·.path = path))).head?).map (·.contents) := by
  rw [Products.contents?, ← List.head?_filter, Products.files, ConvertedWidget.files,
    List.cons_append, List.cons_append, filter_cons_of_path_ne h, List.filter_append,
    List.filter_append, List.map_eq_flatMap, List.filter_flatMap, List.filter_flatMap]
  rfl

theorem Products.contents?_warnings (hplugin : ∀ m, Plugin.Addressed m.name (plugin m))
    (modules : List CustomModule) :
    (Products.ofModules options plugin modules).contents? Address.warnings.path =
      ((ConvertedWidget.warningsFile (convertWidgets options modules)).head?).map (·.contents) := by
  have hwidgets : (convertWidgets options modules).flatMap
      (fun w ↦ [w.file].filter (·.path = Address.warnings.path)) = [] := by
    refine List.flatMap_eq_nil_iff.mpr fun w _ ↦ filter_cons_of_path_ne (fun h ↦ ?_) []
    rw [ConvertedWidget.path_file] at h
    exact nomatch Address.path_injective h
  have hplugins : (modules.map plugin).flatMap
      (fun q ↦ q.files.filter (·.path = Address.warnings.path)) = [] := by
    refine List.flatMap_eq_nil_iff.mpr fun q hq ↦ ?_
    obtain ⟨m, -, rfl⟩ := List.mem_map.mp hq
    exact Plugin.filter_files (hplugin m) fun f h ↦ nomatch Address.path_injective h
  have hfile : (ConvertedWidget.warningsFile (convertWidgets options modules)).filter
      (·.path = Address.warnings.path) =
        ConvertedWidget.warningsFile (convertWidgets options modules) := by
    refine List.filter_eq_self.mpr fun a ha ↦ ?_
    rw [ConvertedWidget.warningsFile] at ha
    split at ha
    · exact nomatch ha
    · rw [List.mem_singleton.mp ha]
      rfl
  rw [Products.contents?_of_ne _ (by decide)]
  simp only [Products.ofModules, hwidgets, hplugins, hfile, List.nil_append, List.append_nil]

variable {own : Option String} (h : AgreeBut place modules modules')
  (hown : (atPlace place modules).map (·.name) = own)
  (hown' : (atPlace place modules').map (·.name) = own)

theorem name_of_mem_atPlace {modules : List CustomModule}
    (hown : (atPlace place modules).map (·.name) = own) {m : CustomModule}
    (hm : m ∈ atPlace place modules) : some m.name = own := by
  rw [← hown, Option.mem_def.mp hm]
  rfl

theorem name_of_mem_widgets {modules : List CustomModule}
    (hown : (atPlace place modules).map (·.name) = own) {w : ConvertedWidget}
    (hw : w ∈ atPlace place (convertWidgets options modules)) : some w.name = own := by
  rw [convertWidgets, atPlace_map] at hw
  obtain ⟨m, hm, rfl⟩ := Option.map_eq_some_iff.mp hw
  exact name_of_mem_atPlace hown hm

include h hown hown'

theorem others_warnings :
    others own ((ConvertedWidget.withWarnings (convertWidgets options modules)).foldl
        ConvertedWidget.putWarnings []) =
      others own ((ConvertedWidget.withWarnings (convertWidgets options modules')).foldl
        ConvertedWidget.putWarnings []) := by
  have hfilter : (convertWidgets options modules).filter (fun w ↦ some w.name ≠ own) =
      (convertWidgets options modules').filter fun w ↦ some w.name ≠ own := by
    refine (h.map _).filter_eq (fun w hw ↦ ?_) fun w hw ↦ ?_
    · exact decide_eq_false (not_not.mpr (name_of_mem_widgets hown hw))
    · exact decide_eq_false (not_not.mpr (name_of_mem_widgets hown' hw))
  rw [ConvertedWidget.others_foldl, ConvertedWidget.others_foldl, ConvertedWidget.withWarnings,
    ConvertedWidget.withWarnings, List.filter_comm, hfilter, List.filter_comm]

theorem contents?_elsewhere (hplugin : ∀ m, Plugin.Addressed m.name (plugin m)) {path : String}
    (hpath : ∀ a : Address, a.IsMadeFrom own → path ≠ a.path) :
    (Products.ofModules options plugin modules).contents? path =
      (Products.ofModules options plugin modules').contents? path := by
  have hwarnings : ∀ ws, (ConvertedWidget.warningsFile ws).filter (·.path = path) = [] := by
    intro ws
    rw [ConvertedWidget.warningsFile]
    split
    · rfl
    · exact filter_cons_of_path_ne (hpath .warnings trivial) []
  -- The module at the place could only have put a file at an address of its own.
  have hwidget : ∀ w : ConvertedWidget, some w.name = own →
      [w.file].filter (·.path = path) = [] := by
    intro w hw
    refine filter_cons_of_path_ne (hpath (.widget (.ofName w.name)) ?_) []
    rw [Address.IsMadeFrom, ← hw]
    rfl
  have hfiles : ∀ m : CustomModule, some m.name = own →
      (plugin m).files.filter (·.path = path) = [] := by
    intro m hm
    refine Plugin.filter_files (hplugin m) fun f ↦ hpath (.plugin (.ofName m.name) f) ?_
    rw [Address.IsMadeFrom, ← hm]
    rfl
  have hwidgets : (convertWidgets options modules).flatMap
        (fun w ↦ [w.file].filter (·.path = path)) =
      (convertWidgets options modules').flatMap fun w ↦ [w.file].filter (·.path = path) :=
    (h.map _).flatMap_eq (fun w hw ↦ hwidget w (name_of_mem_widgets hown hw))
      fun w hw ↦ hwidget w (name_of_mem_widgets hown' hw)
  have hplugins : (modules.map plugin).flatMap (fun q ↦ q.files.filter (·.path = path)) =
      (modules'.map plugin).flatMap fun q ↦ q.files.filter (·.path = path) := by
    rw [List.flatMap_map, List.flatMap_map]
    exact h.flatMap_eq (fun m hm ↦ hfiles m (name_of_mem_atPlace hown hm))
      fun m hm ↦ hfiles m (name_of_mem_atPlace hown' hm)
  rw [Products.contents?_of_ne _ (hpath .widgets trivial),
    Products.contents?_of_ne _ (hpath .widgets trivial), hwarnings, hwarnings]
  simp only [Products.ofModules, hwidgets, hplugins]

omit hown hown' in
theorem isolated_ofModules (hplugin : ∀ m, Plugin.Addressed m.name (plugin m))
    (hnames : modules.map (·.name) = modules'.map (·.name)) :
    Isolated place (.ofModules options plugin modules) (.ofModules options plugin modules') := by
  have hown' : (atPlace place modules').map (·.name) = (atPlace place modules).map (·.name) := by
    rw [← atPlace_map, ← atPlace_map, hnames]
  have hwarnings : ∀ modules, (Products.ofModules options plugin modules).contents?
      Address.warnings.path =
        let members := (ConvertedWidget.withWarnings (convertWidgets options modules)).foldl
          ConvertedWidget.putWarnings []
        if members.isEmpty then none else some (Artifact.document (.object members)) := by
    intro modules
    rw [Products.contents?_warnings hplugin, ConvertedWidget.warningsFile]
    simp only [ConvertedWidget.isEmpty_foldl]
    split
    · rfl
    · rfl
  obtain ⟨head, hhead⟩ := ConvertedWidget.exists_document
  have hdocument : ∀ modules, (Products.ofModules options plugin modules).contents?
      Address.widgets.path = some (Artifact.document (.object (head ++ [("widgets",
        .array ((convertWidgets options modules).map (·.widget.toJson)))]))) := by
    intro modules
    rw [Products.contents?_widgets, hhead]
    rfl
  exact {
    names := hnames
    modules := h
    widgets := h.map _
    plugins := h.map _
    reports := h.map _
    document := ⟨head, _, _, (h.map (ConvertedWidget.ofModule options)).map (·.widget.toJson),
      hdocument modules, hdocument modules'⟩
    warnings := ⟨_, _, others_warnings h rfl hown', hwarnings modules, hwarnings modules'⟩
    elsewhere := fun path hpath ↦ contents?_elsewhere h rfl hown' hplugin hpath }

end

/-- **Modules do not interfere.** Let the same configuration be converted twice, with any two objects
under one key. Both conversions succeed, and they differ at most in what is made from the module
under the key: in its place among modules, widgets, plugins and reports, in the files at its
addresses, in its entry in the document of widgets and in the member under its name in the document
of warnings. The names of all modules are the same, its own among them, and but for the name its
own module is the one that the object describes. -/
theorem modules_isolated (s : Surroundings) (key : String)
    (members members' : List (String × Json)) (options : Options) :
    ∃ p p', Products.ofConfig (s.config key members) options = .ok p ∧
      Products.ofConfig (s.config key members') options = .ok p' ∧
      Isolated (s.place key options) p p' ∧
      ∀ i, s.place key options = some i → ∃ name,
        p.modules[i]? = some (CustomModule.ofMembers name s.label members options) ∧
        p'.modules[i]? = some (CustomModule.ofMembers name s.label members' options) := by
  obtain ⟨plugin, hplugin⟩ := exists_plugin options.defaultInterval
  have hmade := Products.ofConfig_eq fun m ↦ (hplugin m).1
  refine ⟨_, _, hmade _, hmade _, ?_, fun i hi ↦ ?_⟩
  · exact isolated_ofModules (s.agreeBut_extract key options members members')
      (fun m ↦ (hplugin m).2) (s.names_extract key options members members')
  · obtain ⟨name, hname⟩ := s.exists_own key options hi
    exact ⟨name, hname members, hname members'⟩

/-- Three modules whose names share a stem, the middle one left open. -/
def sharedStem : Surroundings where
  before := [("custom/a/b", .object [])]
  after := [("custom/a-b-2", .object [])]
  bars := none

/-- With and without a command, the middle module is the one that has been given a number. -/
theorem modules_isolated_sharedStem :
    sharedStem.place "custom/a-b" {} = some 1 ∧
      ∃ p p', Products.ofConfig (sharedStem.config "custom/a-b" []) {} = .ok p ∧
        Products.ofConfig (sharedStem.config "custom/a-b" [("exec", .string "date")]) {} = .ok p' ∧
        Isolated (some 1) p p' ∧ ∃ name,
          p.modules[1]? = some (CustomModule.ofMembers name "config" [] {}) ∧
          p'.modules[1]? =
            some (CustomModule.ofMembers name "config" [("exec", .string "date")] {}) := by
  have hplace : sharedStem.place "custom/a-b" {} = some 1 := by decide +kernel
  obtain ⟨p, p', hp, hp', hisolated, hown⟩ :=
    modules_isolated sharedStem "custom/a-b" [] [("exec", .string "date")] {}
  rw [hplace] at hisolated
  exact ⟨hplace, p, p', hp, hp', hisolated, hown 1 hplace⟩

end BarBridge
