import BarBridge.Proofs.CommandLine.Course
import BarBridge.Proofs.Files.FreshDirectory

/-!
# A run into a fresh directory

In a fresh directory a run has only its own artifacts to get in its way. Their paths are made from
the names of the modules, and these can be anything that a key can spell, slashes and dots included.
Separators become dashes, and names of dots alone are replaced. What comes of a name is a segment
that every file system takes, with one exception.

## The exception

A NUL character is written in a key as an escape, and nothing takes it out of a name on the way to
the path. It is as much a character of the stem as any other (`hasNul_fileStem`), and a number
behind the name does not change that (`map_hasNul_uniqueNames`). So the run fails, in the words of
the file system, exactly if some module has a NUL character in its name (`first_run_ends`).
-/

namespace BarBridge

open FileTree

/-! ## NUL characters in names

A name goes through several hands on the way to its stem. Characters are replaced, a name may be
replaced as a whole, and numbers are put behind it, but no NUL character comes in or goes out at any
of these steps. -/

theorem hasNul_dashed (name : String) : Path.hasNul (dashed name) = Path.hasNul name := by
  rw [Bool.eq_iff_iff, Path.hasNul, Path.hasNul, List.contains_iff_mem, List.contains_iff_mem,
    dashed, String.toList_ofList, List.mem_map]
  constructor
  · rintro ⟨c, hc, hnul⟩
    split at hnul
    · exact absurd hnul (by decide)
    · exact hnul ▸ hc
  · intro hnul
    exact ⟨_, hnul, if_neg (by decide)⟩

theorem hasNul_fileStem (name : String) : Path.hasNul (fileStem name) = Path.hasNul name := by
  rw [← hasNul_dashed name]
  rcases fileStem_cases name with ⟨h, -⟩ | ⟨hname, h⟩ | ⟨hname, h⟩ | ⟨hname, h⟩
  · rw [h]
  all_goals
    rw [h, hname]
    decide

theorem hasNul_numbered (name : String) (n : Nat) :
    Path.hasNul (numbered name n) = Path.hasNul name := by
  have hdigits : Path.hasNul (toString n) = false := by
    rw [← Bool.not_eq_true, Path.hasNul, List.contains_iff_mem]
    intro hnul
    exact absurd (isDigit_of_mem_toString hnul) (by decide)
  rw [numbered]
  split
  · rfl
  · rw [Path.hasNul_append, Path.hasNul_append, hdigits, Bool.or_false]
    exact Bool.or_false _

theorem map_hasNul_uniqueNames (names : List String) :
    (uniqueNames names).map Path.hasNul = names.map Path.hasNul := by
  have hassign : ∀ r : Register, (r.assign names).map Path.hasNul = names.map Path.hasNul := by
    induction names with
    | nil => exact fun _ ↦ rfl
    | cons name names ih =>
      intro r
      rw [Register.assign, List.map_cons, List.map_cons, hasNul_numbered, ih]
  exact hassign Register.empty

theorem any_hasNul_extract (config : Json) (options : Options) :
    (extract config options).any (fun m ↦ Path.hasNul m.name) =
      (candidates config options).any fun m ↦ Path.hasNul m.name := by
  have hany : ∀ modules : List CustomModule, modules.any (fun m ↦ Path.hasNul m.name) =
      ((modules.map (·.name)).map Path.hasNul).any id := by
    intro modules
    rw [List.any_map, List.any_map]
    rfl
  rw [hany, hany, extract, map_name_uniquelyNamed, map_hasNul_uniqueNames]

/-! ## NUL characters in addresses -/

namespace Address

/-- The stem that an address is made from, if it is that of a module. -/
def stem? : Address → Option Stem
  | widgets | warnings => none
  | widget stem | plugin stem _ => some stem

theorem hasNul_path (a : Address) :
    Path.hasNul a.path = a.stem?.any fun s ↦ Path.hasNul s.text := by
  cases a with
  | widgets => decide
  | warnings => decide
  | widget stem =>
    have hfront : Path.hasNul ("widgets" ++ "/") = false := by decide
    have hback : Path.hasNul ".json" = false := by decide
    rw [path_widget, Path.hasNul_append ("widgets" ++ "/"), Path.hasNul_append stem.text, hfront,
      hback, Bool.false_or, Bool.or_false]
    rfl
  | plugin stem file =>
    have hfront : Path.hasNul ("plugins" ++ "/") = false := by decide
    have hstem : Path.hasNul "waybar-" = false := by decide
    have hback : Path.hasNul ("/" ++ file.path) = false := by cases file <;> decide
    rw [path_plugin, Path.hasNul_append ("plugins" ++ "/"), String.append_assoc,
      Path.hasNul_append ("waybar-" ++ stem.text), Path.hasNul_append "waybar-", hfront, hstem,
      hback, Bool.false_or, Bool.false_or, Bool.or_false]
    rfl

theorem namesDirectory_path (a : Address) : Path.namesDirectory a.path = false := by
  cases a with
  | widgets => decide
  | warnings => decide
  | widget stem =>
    rw [path_widget, Path.namesDirectory_append_slash]
    exact Path.namesDirectory_of_isComponent (isComponent_widget stem)
      (ne_of_length_lt (length_widget stem))
  | plugin stem file =>
    rw [path_plugin, Path.namesDirectory_append_slash, Path.namesDirectory_append_slash]
    cases file <;> decide

end Address

theorem any_hasNul_stemsOf (modules : List CustomModule) :
    (stemsOf modules).any (fun s ↦ Path.hasNul s.text) =
      modules.any fun m ↦ Path.hasNul m.name := by
  have hstem : ∀ m : CustomModule, Path.hasNul (Stem.ofName m.name).text = Path.hasNul m.name := by
    intro m
    rw [Stem.ofName, hasNul_fileStem]
  simp only [stemsOf, List.any_map, Function.comp_def, hstem]

theorem any_hasNul_widgetAddresses (warned : Bool) (stems : List Stem) :
    (widgetAddresses warned stems).any (fun a ↦ Path.hasNul a.path) =
      stems.any fun s ↦ Path.hasNul s.text := by
  simp only [Address.hasNul_path]
  cases warned <;> simp [widgetAddresses, Address.stem?, Function.comp_def]

theorem any_hasNul_pluginAddresses (stems : List Stem) :
    (pluginAddresses stems).any (fun a ↦ Path.hasNul a.path) =
      stems.any fun s ↦ Path.hasNul s.text := by
  simp only [Address.hasNul_path]
  simp [pluginAddresses, Address.stem?, PluginFile.all]

theorem any_hasNul_of_path {artifacts : List Artifact} {addresses : List Address}
    (h : artifacts.map (·.path) = addresses.map (·.path)) :
    artifacts.any (fun a ↦ Path.hasNul a.path) = addresses.any fun a ↦ Path.hasNul a.path := by
  have hnul : (artifacts.map (·.path)).any Path.hasNul = (addresses.map (·.path)).any Path.hasNul :=
    congrArg (·.any Path.hasNul) h
  rwa [List.any_map, List.any_map] at hnul

/-- **Whatever is emitted, in whatever mode**, has a NUL character in a path exactly if some module
has one in its name. -/
theorem any_hasNul_emitted {settings : RunSettings} {modules : List CustomModule}
    {plugins : List Plugin}
    (h : modules.mapM (Plugin.ofModule · settings.options.defaultInterval) = .ok plugins) :
    (emitted settings modules plugins).any (fun a ↦ Path.hasNul a.path) =
      modules.any fun m ↦ Path.hasNul m.name := by
  obtain ⟨warned, hpaths⟩ := path_files settings.options modules
  have hwidgets := (any_hasNul_of_path hpaths).trans (any_hasNul_widgetAddresses warned _)
  have hplugins := (any_hasNul_of_path (path_plugins h)).trans (any_hasNul_pluginAddresses _)
  rw [any_hasNul_stemsOf] at hwidgets hplugins
  rw [emitted, List.any_append]
  cases settings.mode with
  | widgets => exact (Bool.or_false _).trans hwidgets
  | plugins => exact (Bool.false_or _).trans hplugins
  | both => exact (congrArg₂ or hwidgets hplugins).trans (Bool.or_self _)

/-! ## The run -/

section

variable {args : Arguments} {env : Environment} {t : FileTree} {inputs : Inputs} {config : Json}
  {plugins : List Plugin} {base : Location}

theorem Writes.failure_of_fresh (h : Writes args env t inputs config plugins)
    (hfresh : Fresh t env.cwd inputs.settings.outputDir base) :
    (run args env t).failure =
      if (extract config inputs.settings.options).any (fun m ↦ Path.hasNul m.name) then
        some (.io .nulInPath)
      else none := by
  have hpaths : ∀ a ∈ emitted inputs.settings (extract config inputs.settings.options) plugins,
      LeadsDown a.path ∧ Path.namesDirectory a.path = false := by
    intro a ha
    obtain ⟨b, hb⟩ := h.exists_address ha
    exact hb ▸ ⟨leadsDown_path b, b.namesDirectory_path⟩
  have hbatch := writeBatch_of_fresh hfresh hpaths h.apart
  have hrun := congrArg Prod.snd h.run_eq
  dsimp only at hrun
  rw [any_hasNul_emitted h.made] at hbatch
  rcases hwritten : t.writeBatch env.cwd inputs.settings.outputDir
      (emitted inputs.settings (extract config inputs.settings.options) plugins) with ⟨t', answer⟩
  rw [hwritten] at hbatch hrun
  obtain rfl : answer = _ := hbatch
  rw [hrun]
  split <;> rfl

/-- **How a run ends in a fresh directory.** Whatever the configuration, the options and the mode
are, it succeeds unless some key spells a NUL character in the name of a module. -/
theorem first_run_ends (h : Reads args env t inputs config) (hdry : args.dryRun = false)
    (hfresh : Fresh t env.cwd inputs.settings.outputDir base) :
    (run args env t).failure =
      if (candidates config inputs.settings.options).any (fun m ↦ Path.hasNul m.name) then
        some (.io .nulInPath)
      else none := by
  rw [← any_hasNul_extract]
  by_cases hnone : extract config inputs.settings.options = []
  · rw [h.run_eq hnone, hnone]
    rfl
  · obtain ⟨plugins, hconverts⟩ := h.exists_converts hnone
    exact (hconverts.writes hdry).failure_of_fresh hfresh

end

/-! ## Two first runs -/

/-- A configuration in a working directory with a fresh output directory. -/
def freshTree (text : String) : FileTree where
  entries := [
    (["home"], .directory),
    (["home", "bar.json"], .file (.text text)),
    (["home", "out"], .directory)]
  limits := .unbounded

theorem fresh_freshTree (text : String) :
    Fresh (freshTree text) "/home" "out" ["home", "out"] where
  limits := rfl
  made := rfl
  directory := rfl
  empty := by
    intro names hne
    obtain ⟨name, names, rfl⟩ := List.exists_cons_of_ne_nil hne
    rfl
  nul := by decide

/-- What is read where the configuration is the given one. -/
def freshInputs (config : Json) : Inputs :=
  { clockInputs with config := .ok config }

/-- A module whose name has a NUL character. -/
def nulText : String :=
  "\x7b\"custom/a\\u0000b\": \x7b\"exec\": \"date\"\x7d\x7d"

def nulConfig : Json :=
  .object [("custom/a\x00b", .object [("exec", .string "date")])]

/-- Modules whose names could be taken for paths. -/
def dotsText : String :=
  "\x7b\"custom/..\": \x7b\"exec\": \"date\"\x7d, " ++
    "\"custom/../a\": \x7b\"exec\": \"date\"\x7d\x7d"

def dotsConfig : Json :=
  .object [("custom/..", .object [("exec", .string "date")]),
    ("custom/../a", .object [("exec", .string "date")])]

theorem first_run_ends_dots :
    clockArguments.dryRun = false ∧
      Reads clockArguments clockEnvironment (freshTree dotsText) (freshInputs dotsConfig)
        dotsConfig ∧
      Fresh (freshTree dotsText) "/home" "out" ["home", "out"] ∧
      (run clockArguments clockEnvironment (freshTree dotsText)).failure = none := by
  have hreads : Reads clockArguments clockEnvironment (freshTree dotsText)
      (freshInputs dotsConfig) dotsConfig := ⟨rfl, rfl⟩
  have hnames : (candidates dotsConfig (freshInputs dotsConfig).settings.options).any
      (fun m ↦ Path.hasNul m.name) = false := by decide +kernel
  have hends := first_run_ends hreads rfl (fresh_freshTree dotsText)
  rw [hnames] at hends
  exact ⟨rfl, hreads, fresh_freshTree dotsText, hends⟩

/-- The NUL character ends the run, with a failure that is none of the directory's. -/
theorem first_run_fails_nul :
    clockArguments.dryRun = false ∧
      Reads clockArguments clockEnvironment (freshTree nulText) (freshInputs nulConfig) nulConfig ∧
      Fresh (freshTree nulText) "/home" "out" ["home", "out"] ∧
      (run clockArguments clockEnvironment (freshTree nulText)).failure =
        some (.io .nulInPath) := by
  have hreads : Reads clockArguments clockEnvironment (freshTree nulText)
      (freshInputs nulConfig) nulConfig := ⟨rfl, rfl⟩
  have hnonempty : extract nulConfig (freshInputs nulConfig).settings.options ≠ [] := by
    decide +kernel
  have hnames : (extract nulConfig (freshInputs nulConfig).settings.options).any
      (fun m ↦ Path.hasNul m.name) = true := by decide +kernel
  obtain ⟨plugins, hconverts⟩ := hreads.exists_converts hnonempty
  have hfails := (hconverts.writes rfl).failure_of_fresh (fresh_freshTree nulText)
  rw [hnames] at hfails
  exact ⟨rfl, hreads, fresh_freshTree nulText, hfails⟩

end BarBridge
