import BarBridge.Proofs.Files.Components
import BarBridge.Proofs.Module.Stems
import BarBridge.Proofs.Plugin.Views
import BarBridge.Widget.Document

/-!
# Where the artifacts of a configuration go

Everything a configuration is converted to goes to one of a few places, most of them made from the
stem of a module. An `Address` is such a place, and its path is what the artifact carries. Different
addresses never get in each other's way: neither is the other, nor a directory above it. So all that
has to be known of a configuration is that no address is used twice, and that follows from its stems
being different.
-/

namespace BarBridge

/-! ## Addresses

A stem has no separators and is no place by itself. Its file and its directory are called by new
texts, though, with something put before or behind the stem, and these could be two dots again. They
are too long for that, whatever the stem is. -/

/-- A stem, known to be a segment. -/
structure Stem where
  text : String
  isSegment : IsSegment text

namespace Stem

/-- The stem of a name. -/
def ofName (name : String) : Stem :=
  ⟨fileStem name, isSegment_fileStem name⟩

theorem eq_of_text_eq {s t : Stem} (h : s.text = t.text) : s = t := by
  cases s
  cases t
  cases h
  rfl

end Stem

/-- The files of a plugin. -/
inductive PluginFile where
  | manifest
  | main
  | bar
  | settings
  | texts
  | readme
  deriving DecidableEq, Repr

namespace PluginFile

/-- All files, in the order in which they are made. -/
def all : List PluginFile :=
  [manifest, main, bar, settings, texts, readme]

/-- The path below the directory of the plugin. -/
def path : PluginFile → String
  | manifest => "manifest.json"
  | main => "Main.qml"
  | bar => "BarWidget.qml"
  | settings => "Settings.qml"
  | texts => "i18n/en.json"
  | readme => "README.md"

def components : PluginFile → List String
  | texts => ["i18n", "en.json"]
  | f => [f.path]

theorem components_path (f : PluginFile) : Path.components f.path = f.components := by
  cases f <;> decide

theorem eq_of_prefix {f g : PluginFile} (h : f.components <+: g.components) : f = g := by
  revert h
  cases f <;> cases g <;> decide

theorem nodup_all : all.Nodup := by decide

end PluginFile

/-- A place for an artifact. -/
inductive Address where
  /-- The document of all widgets. -/
  | widgets
  /-- The document of warnings. -/
  | warnings
  | widget (stem : Stem)
  | plugin (stem : Stem) (file : PluginFile)

namespace Address

def path : Address → String
  | widgets => "custom_widgets.json"
  | warnings => "widget_warnings.json"
  | widget stem => "widgets/" ++ stem.text ++ ".json"
  | plugin stem file => "plugins/waybar-" ++ stem.text ++ "/" ++ file.path

def components : Address → List String
  | widgets => ["custom_widgets.json"]
  | warnings => ["widget_warnings.json"]
  | widget stem => ["widgets", stem.text ++ ".json"]
  | plugin stem file => "plugins" :: ("waybar-" ++ stem.text) :: file.components

theorem ne_of_length_lt {s t : String} (h : s.toList.length < t.toList.length) : t ≠ s := by
  rintro rfl
  exact absurd h (Nat.lt_irrefl _)

theorem length_widget (stem : Stem) : 2 < (stem.text ++ ".json").toList.length := by
  rw [String.toList_append, List.length_append]
  exact Nat.lt_of_lt_of_le (by decide) (Nat.le_add_left _ _)

theorem length_plugin (stem : Stem) : 2 < ("waybar-" ++ stem.text).toList.length := by
  rw [String.toList_append, List.length_append]
  exact Nat.lt_of_lt_of_le (by decide) (Nat.le_add_right _ _)

theorem isComponent_append {s t : String} (hs : '/' ∉ s.toList) (ht : '/' ∉ t.toList)
    (hlength : 2 < (s ++ t).toList.length) : Path.IsComponent (s ++ t) where
  ne_empty := ne_of_length_lt (Nat.lt_trans (by decide) hlength)
  ne_dot := ne_of_length_lt (Nat.lt_trans (by decide) hlength)
  slash_notMem := by
    rw [String.toList_append, List.mem_append, not_or]
    exact ⟨hs, ht⟩

theorem isComponent_widget (stem : Stem) : Path.IsComponent (stem.text ++ ".json") :=
  isComponent_append stem.isSegment.2.1 (by decide) (length_widget stem)

theorem isComponent_plugin (stem : Stem) : Path.IsComponent ("waybar-" ++ stem.text) :=
  isComponent_append (by decide) stem.isSegment.2.1 (length_plugin stem)

theorem isComponent_widgets : Path.IsComponent "widgets" := ⟨by decide, by decide, by decide⟩

theorem isComponent_plugins : Path.IsComponent "plugins" := ⟨by decide, by decide, by decide⟩

theorem path_widget (stem : Stem) :
    (widget stem).path = "widgets" ++ "/" ++ (stem.text ++ ".json") := by
  rw [← String.append_assoc]
  rfl

theorem path_plugin (stem : Stem) (file : PluginFile) :
    (plugin stem file).path =
      "plugins" ++ "/" ++ (("waybar-" ++ stem.text) ++ "/" ++ file.path) := by
  rw [← String.append_assoc, ← String.append_assoc, ← String.append_assoc]
  rfl

/-- **The components of an address.** -/
theorem components_path (a : Address) : Path.components a.path = a.components := by
  cases a with
  | widgets => decide
  | warnings => decide
  | widget stem =>
    rw [path_widget, Path.components_append isComponent_widgets,
      Path.components_of_isComponent (isComponent_widget stem)]
    rfl
  | plugin stem file =>
    rw [path_plugin, Path.components_append isComponent_plugins,
      Path.components_append (isComponent_plugin stem), file.components_path]
    rfl

theorem dots_notMem_components (a : Address) : ".." ∉ a.components := by
  cases a with
  | widgets => decide
  | warnings => decide
  | widget stem =>
    have hstem : stem.text ++ ".json" ≠ ".." := ne_of_length_lt (length_widget stem)
    rw [components, List.mem_cons, List.mem_singleton, not_or]
    exact ⟨by decide, hstem.symm⟩
  | plugin stem file =>
    have hstem : "waybar-" ++ stem.text ≠ ".." := ne_of_length_lt (length_plugin stem)
    have hfile : ".." ∉ file.components := by cases file <;> decide
    rw [components, List.mem_cons, List.mem_cons, not_or, not_or]
    exact ⟨by decide, hstem.symm, hfile⟩

theorem isAbsolute_path (a : Address) : Path.isAbsolute a.path = false := by
  cases a with
  | widgets => decide
  | warnings => decide
  | widget stem =>
    rw [path_widget, String.append_assoc]
    exact Path.isAbsolute_of_isComponent isComponent_widgets _
  | plugin stem file =>
    rw [path_plugin, String.append_assoc]
    exact Path.isAbsolute_of_isComponent isComponent_plugins _

theorem stem_eq_of_widget {s t : Stem} (h : (widget s).components <+: (widget t).components) :
    s = t := by
  obtain ⟨-, htail⟩ := List.cons_prefix_cons.mp h
  obtain ⟨htext, -⟩ := List.cons_prefix_cons.mp htail
  rw [← String.toList_inj, String.toList_append, String.toList_append] at htext
  exact Stem.eq_of_text_eq (String.toList_inj.mp (List.append_cancel_right htext))

theorem stem_and_file_eq_of_plugin {s t : Stem} {f g : PluginFile}
    (h : (plugin s f).components <+: (plugin t g).components) : s = t ∧ f = g := by
  obtain ⟨-, htail⟩ := List.cons_prefix_cons.mp h
  obtain ⟨htext, hfile⟩ := List.cons_prefix_cons.mp htail
  rw [← String.toList_inj, String.toList_append, String.toList_append] at htext
  exact ⟨Stem.eq_of_text_eq (String.toList_inj.mp (List.append_cancel_left htext)),
    PluginFile.eq_of_prefix hfile⟩

/-- **Addresses do not get in each other's way.** The first component tells the four kinds apart. -/
theorem eq_of_prefix {a b : Address} (h : a.components <+: b.components) : a = b := by
  have hhead : a.components.head? = b.components.head? := by
    obtain ⟨rest, hrest⟩ := h
    rw [← hrest]
    cases a <;> rfl
  -- Within a kind, what is left to compare is the stem, and the file of a plugin.
  cases a with
  | widgets =>
    cases b with
    | widgets => rfl
    | _ => exact absurd hhead (by simp [components])
  | warnings =>
    cases b with
    | warnings => rfl
    | _ => exact absurd hhead (by simp [components])
  | widget s =>
    cases b with
    | widget t => rw [stem_eq_of_widget h]
    | _ => exact absurd hhead (by simp [components])
  | plugin s f =>
    cases b with
    | plugin t g =>
      obtain ⟨rfl, rfl⟩ := stem_and_file_eq_of_plugin h
      rfl
    | _ => exact absurd hhead (by simp [components])

theorem path_injective {a b : Address} (h : a.path = b.path) : a = b := by
  have hcomponents : a.components = b.components := by
    rw [← components_path, ← components_path, h]
  exact eq_of_prefix ⟨[], by rw [List.append_nil, hcomponents]⟩

end Address

/-! ## The addresses of a configuration

The addresses are made from the stems alone. The one exception is the document of warnings, of which
nothing is said but whether it is there. -/

/-- The addresses of the widgets of modules with the given stems. -/
def widgetAddresses (warned : Bool) (stems : List Stem) : List Address :=
  .widgets :: (stems.map .widget ++ if warned then [.warnings] else [])

/-- The addresses of the plugins of modules with the given stems. -/
def pluginAddresses (stems : List Stem) : List Address :=
  stems.flatMap fun s ↦ PluginFile.all.map (.plugin s)

/-- **No address is used twice**, given that the stems are different. -/
theorem nodup_addresses (warned : Bool) {stems : List Stem} (h : stems.Nodup) :
    (widgetAddresses warned stems ++ pluginAddresses stems).Nodup := by
  -- Two addresses of a kind differ in the stem or the file; addresses of two kinds always differ.
  have hwidgets : (widgetAddresses warned stems).Nodup := by
    have hstems : (stems.map Address.widget).Nodup :=
      h.map fun s t hst ↦ Address.widget.inj hst
    refine List.nodup_cons.mpr ⟨by cases warned <;> simp, List.nodup_append.mpr ⟨hstems, ?_, ?_⟩⟩
    · cases warned <;> simp
    · intro a ha b hb
      obtain ⟨s, -, rfl⟩ := List.mem_map.mp ha
      rintro rfl
      cases warned <;> simp at hb
  have hplugins : (pluginAddresses stems).Nodup := by
    refine List.nodup_flatMap.mpr ⟨fun s _ ↦ ?_, h.imp fun {s t} hst ↦ ?_⟩
    · exact PluginFile.nodup_all.map fun f g hfg ↦ (Address.plugin.inj hfg).2
    · intro a ha hb
      obtain ⟨f, -, rfl⟩ := List.mem_map.mp ha
      obtain ⟨g, -, hg⟩ := List.mem_map.mp hb
      exact hst (Address.plugin.inj hg).1.symm
  refine List.nodup_append.mpr ⟨hwidgets, hplugins, ?_⟩
  rintro a ha b hb rfl
  obtain ⟨s, -, hs⟩ := List.mem_flatMap.mp hb
  obtain ⟨f, -, rfl⟩ := List.mem_map.mp hs
  cases warned <;> simp [widgetAddresses] at ha

/-- The stems of a configuration, in order. -/
def stemsOf (modules : List CustomModule) : List Stem :=
  modules.map fun m ↦ .ofName m.name

theorem nodup_stemsOf_extract (config : Json) (options : Options) :
    (stemsOf (extract config options)).Nodup := by
  refine List.Nodup.of_map Stem.text ?_
  rw [stemsOf, List.map_map]
  exact nodup_stems_extract config options

theorem path_files (options : Options) (modules : List CustomModule) :
    ∃ warned, (ConvertedWidget.files (convertWidgets options modules)).map (·.path) =
      (widgetAddresses warned (stemsOf modules)).map (·.path) := by
  refine ⟨!(ConvertedWidget.withWarnings (convertWidgets options modules)).isEmpty, ?_⟩
  have hwidgets : ((convertWidgets options modules).map ConvertedWidget.file).map (·.path) =
      ((stemsOf modules).map Address.widget).map (·.path) := by
    rw [convertWidgets, stemsOf, List.map_map, List.map_map, List.map_map, List.map_map]
    rfl
  rw [ConvertedWidget.files, List.map_append, List.map_cons, hwidgets, widgetAddresses,
    List.map_cons, List.map_append]
  cases (ConvertedWidget.withWarnings (convertWidgets options modules)).isEmpty with
  | true => rfl
  | false => rfl

theorem path_assembled (m : CustomModule) (d : PluginDefaults) (main bar settings readme : String) :
    (Plugin.assembled m d main bar settings readme).files.map (·.path) =
      (PluginFile.all.map (Address.plugin (.ofName m.name))).map (·.path) := by
  have hdirectory : Plugin.directory m = "plugins/waybar-" ++ fileStem m.name ++ "/" := by
    rw [Plugin.directory, Plugin.idOf, ← String.append_assoc]
    rfl
  rw [Plugin.assembled, hdirectory]
  rfl

theorem exists_plugins (modules : List CustomModule) (interval : UInt64) :
    ∃ plugins, modules.mapM (Plugin.ofModule · interval) = .ok plugins ∧
      (plugins.flatMap (·.files)).map (·.path) =
        (pluginAddresses (stemsOf modules)).map (·.path) := by
  induction modules with
  | nil => exact ⟨[], rfl, rfl⟩
  | cons m modules ih =>
    obtain ⟨plugins, hplugins, hpaths⟩ := ih
    obtain ⟨main, bar, settings, readme, hplugin, -⟩ := Plugin.exists_assembled m interval
    refine ⟨Plugin.assembled m (Plugin.defaults m interval) main bar settings readme :: plugins,
      ?_, ?_⟩
    · rw [List.mapM_cons, hplugin, hplugins]
      rfl
    · rw [List.flatMap_cons, List.map_append, path_assembled, hpaths, ← List.map_append]
      rfl

theorem exists_addresses (config : Json) (options : Options) (interval : UInt64) :
    ∃ (plugins : List Plugin) (addresses : List Address),
      (extract config options).mapM (Plugin.ofModule · interval) = .ok plugins ∧
      (ConvertedWidget.files (convertWidgets options (extract config options)) ++
        plugins.flatMap (·.files)).map (·.path) = addresses.map Address.path ∧
      addresses.Nodup := by
  obtain ⟨plugins, hplugins, hpluginPaths⟩ := exists_plugins (extract config options) interval
  obtain ⟨warned, hwidgetPaths⟩ := path_files options (extract config options)
  refine ⟨plugins, _, hplugins, ?_, nodup_addresses warned (nodup_stemsOf_extract config options)⟩
  rw [List.map_append, hwidgetPaths, hpluginPaths, ← List.map_append]

theorem pairwise_path {addresses : List Address} (h : addresses.Nodup) :
    (addresses.map Address.path).Pairwise fun p q ↦
      ¬Path.components p <+: Path.components q ∧ ¬Path.components q <+: Path.components p := by
  refine List.pairwise_map.mpr (h.imp fun {a b} hne ↦ ?_)
  rw [Address.components_path, Address.components_path]
  exact ⟨fun h ↦ hne (Address.eq_of_prefix h), fun h ↦ hne (Address.eq_of_prefix h).symm⟩

/-- **Artifacts do not collide.** Whatever the names of the modules are, the artifacts of a
configuration go to different places, none of which is a directory above another, and all of which
are addresses below the directory that everything is written to. -/
theorem path_artifacts (config : Json) (options : Options) (interval : UInt64) :
    ∃ plugins, (extract config options).mapM (Plugin.ofModule · interval) = .ok plugins ∧
      let paths := (ConvertedWidget.files (convertWidgets options (extract config options)) ++
        plugins.flatMap (·.files)).map (·.path)
      paths.Nodup ∧
        paths.Pairwise (fun p q ↦ ¬Path.components p <+: Path.components q ∧
          ¬Path.components q <+: Path.components p) ∧
        ∀ p ∈ paths, (∃ a : Address, p = a.path) ∧ Path.isAbsolute p = false ∧
          ".." ∉ Path.components p := by
  obtain ⟨plugins, addresses, hplugins, hpaths, hnodup⟩ := exists_addresses config options interval
  refine ⟨plugins, hplugins, ?_⟩
  rw [hpaths]
  refine ⟨hnodup.map fun a b ↦ Address.path_injective, pairwise_path hnodup, ?_⟩
  intro p hp
  obtain ⟨a, -, rfl⟩ := List.mem_map.mp hp
  refine ⟨⟨a, rfl⟩, a.isAbsolute_path, ?_⟩
  rw [Address.components_path]
  exact a.dots_notMem_components

end BarBridge
