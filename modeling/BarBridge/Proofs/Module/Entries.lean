import BarBridge.Proofs.Module.Renaming

/-!
# The entries of a configuration that describe modules

An entry is a key of the form `custom/name`, with a name, in one of the bars of a configuration, if
its value is an object. Where the entries stand is said by two numbers, the place of the bar in the
list of bars and the place of the key in the bar; bars and keys that hold no entry are counted as
well. `extract_describes_entries` says that the modules of a configuration are its entries one by
one, in the order of these places, and that each is made from its own entry.

## What a module depends on

A module is described by the label of its bar, its object and the name it is given in the end. The
first two belong to the entry. The name is given in view of the names of all entries, and this is
the one way in which other entries matter. What is no entry matters for nothing: two configurations
with the same labels, names and objects in the same order have the same modules, wherever their
entries stand and whatever stands between them.
-/

namespace BarBridge

/-- An object in a configuration that describes a custom module. -/
structure ModuleEntry where
  /-- The place of the bar, and that of the key in the bar. -/
  place : Nat × Nat
  /-- The label of the bar. -/
  source : String
  name : String
  members : List (String × Json)

namespace ModuleEntry

/-- Whether an entry stands in a configuration. -/
inductive StandsIn : Json → ModuleEntry → Prop where
  | inList {bars : List Json} {i j : Nat} {bar members : List (String × Json)} {name : String}
      (hbar : bars[i]? = some (.object bar))
      (hkey : bar[j]? = some ("custom/" ++ name, .object members)) (hname : name ≠ "") :
      StandsIn (.array bars) ⟨(i, j), s!"config[{i}]", name, members⟩
  | inBar {j : Nat} {bar members : List (String × Json)} {name : String}
      (hkey : bar[j]? = some ("custom/" ++ name, .object members)) (hname : name ≠ "") :
      StandsIn (.object bar) ⟨(0, j), "config", name, members⟩

/-- What an entry says, without where it stands. -/
def content (e : ModuleEntry) : String × String × List (String × Json) :=
  (e.source, e.name, e.members)

/-- The module that an entry describes, under its own name. -/
def describe (e : ModuleEntry) (options : Options) : CustomModule :=
  CustomModule.ofMembers e.name e.source e.members options

/-- Whether an entry stands before another. -/
def Before (e e' : ModuleEntry) : Prop :=
  Prod.Lex (· < ·) (· < ·) e.place e'.place

end ModuleEntry

/-- The entry that a member of a bar is, if it describes a module. -/
def entryAt? (i : Nat) (source : String) (member : (String × Json) × Nat) :
    Option ModuleEntry := do
  let name ← moduleName? member.1.1
  let members ← member.1.2.object?
  return ⟨(i, member.2), source, name, members⟩

/-- The entries of a bar. -/
def entriesOf (i : Nat) (source : String) (bar : List (String × Json)) : List ModuleEntry :=
  bar.zipIdx.filterMap (entryAt? i source)

/-- The bars of a configuration, each with its place and its label. -/
def barsOf : Json → List (Nat × String × List (String × Json))
  | .array bars => bars.zipIdx.filterMap fun p ↦
      p.1.object?.map fun bar ↦ (p.2, s!"config[{p.2}]", bar)
  | .object bar => [(0, "config", bar)]
  | _ => []

/-- The entries of a configuration, in order. -/
def entries (config : Json) : List ModuleEntry :=
  (barsOf config).flatMap fun b ↦ entriesOf b.1 b.2.1 b.2.2

/-! ## Keys and values -/

theorem moduleName?_eq_some_iff {key name : String} :
    moduleName? key = some name ↔ key = "custom/" ++ name ∧ name ≠ "" := by
  have hprefix : "custom/".toList = modulePrefix := rfl
  rw [moduleName?]
  constructor
  · intro h
    split at h
    · next hkey =>
      obtain ⟨rest, hrest⟩ := List.isPrefixOf_iff_prefix.mp hkey
      rw [← hrest, List.drop_left] at h
      dsimp only at h
      split at h
      · contradiction
      · next hne =>
        obtain rfl : String.ofList rest = name := by simpa using h
        refine ⟨?_, fun hname ↦ hne ?_⟩
        · rw [← String.toList_inj, String.toList_append, hprefix, String.toList_ofList, hrest]
        · rw [← String.toList_ofList (l := rest), hname]
          rfl
    · contradiction
  · rintro ⟨rfl, hname⟩
    have hne : name.toList ≠ [] := fun h ↦ hname (String.toList_eq_nil_iff.mp h)
    rw [String.toList_append, hprefix, if_pos (List.isPrefixOf_iff_prefix.mpr ⟨_, rfl⟩)]
    simp [hne]

theorem Json.object?_eq_some_iff {v : Json} {members : List (String × Json)} :
    v.object? = some members ↔ v = .object members := by
  cases v <;> simp [Json.object?]

/-! ## Which entries there are -/

theorem entryAt?_eq_some_iff {i j : Nat} {source key : String} {value : Json} {e : ModuleEntry} :
    entryAt? i source ((key, value), j) = some e ↔ ∃ name members,
      key = "custom/" ++ name ∧ value = .object members ∧ name ≠ "" ∧
        e = ⟨(i, j), source, name, members⟩ := by
  constructor
  · intro h
    obtain ⟨name, hname, h⟩ := Option.bind_eq_some_iff.mp h
    obtain ⟨members, hmembers, h⟩ := Option.bind_eq_some_iff.mp h
    obtain ⟨hkey, hne⟩ := moduleName?_eq_some_iff.mp hname
    exact ⟨name, members, hkey, Json.object?_eq_some_iff.mp hmembers, hne, (Option.some.inj h).symm⟩
  · rintro ⟨name, members, rfl, rfl, hne, rfl⟩
    have hname := moduleName?_eq_some_iff.mpr ⟨rfl, hne⟩
    rw [entryAt?, hname]
    rfl

theorem mem_entriesOf {i : Nat} {source : String} {bar : List (String × Json)} {e : ModuleEntry} :
    e ∈ entriesOf i source bar ↔ ∃ j name members,
      bar[j]? = some ("custom/" ++ name, .object members) ∧ name ≠ "" ∧
        e = ⟨(i, j), source, name, members⟩ := by
  rw [entriesOf, List.mem_filterMap]
  constructor
  · rintro ⟨⟨⟨key, value⟩, j⟩, hmem, h⟩
    rw [List.mem_zipIdx_iff_getElem?] at hmem
    obtain ⟨name, members, rfl, rfl, hne, rfl⟩ := entryAt?_eq_some_iff.mp h
    exact ⟨j, name, members, hmem, hne, rfl⟩
  · rintro ⟨j, name, members, hmem, hne, rfl⟩
    refine ⟨(("custom/" ++ name, .object members), j), ?_, ?_⟩
    · rwa [List.mem_zipIdx_iff_getElem?]
    · exact entryAt?_eq_some_iff.mpr ⟨name, members, rfl, rfl, hne, rfl⟩

theorem mem_barsOf_array {bars : List Json} {b : Nat × String × List (String × Json)} :
    b ∈ barsOf (.array bars) ↔
      ∃ i bar, bars[i]? = some (.object bar) ∧ b = (i, s!"config[{i}]", bar) := by
  rw [barsOf, List.mem_filterMap]
  constructor
  · rintro ⟨⟨value, i⟩, hmem, h⟩
    rw [List.mem_zipIdx_iff_getElem?] at hmem
    obtain ⟨bar, hbar, rfl⟩ := Option.map_eq_some_iff.mp h
    obtain rfl := Json.object?_eq_some_iff.mp hbar
    exact ⟨i, bar, hmem, rfl⟩
  · rintro ⟨i, bar, hmem, rfl⟩
    refine ⟨(.object bar, i), ?_, rfl⟩
    rwa [List.mem_zipIdx_iff_getElem?]

/-- **The entries are what stands in the configuration.** -/
theorem mem_entries_iff {config : Json} {e : ModuleEntry} :
    e ∈ entries config ↔ e.StandsIn config := by
  rw [entries, List.mem_flatMap]
  constructor
  · rintro ⟨b, hb, he⟩
    obtain ⟨j, name, members, hkey, hname, rfl⟩ := mem_entriesOf.mp he
    cases config with
    | array bars =>
      obtain ⟨i, bar, hbar, rfl⟩ := mem_barsOf_array.mp hb
      exact .inList hbar hkey hname
    | object bar =>
      obtain rfl := List.mem_singleton.mp hb
      exact .inBar hkey hname
    | null | bool _ | number _ | string _ => exact absurd hb List.not_mem_nil
  · intro h
    cases h with
    | @inList bars i j bar members name hbar hkey hname =>
      exact ⟨_, mem_barsOf_array.mpr ⟨i, bar, hbar, rfl⟩,
        mem_entriesOf.mpr ⟨j, name, members, hkey, hname, rfl⟩⟩
    | @inBar j bar members name hkey hname =>
      exact ⟨_, List.mem_singleton_self _,
        mem_entriesOf.mpr ⟨j, name, members, hkey, hname, rfl⟩⟩

/-! ## Their order

Places count all bars and all members of a bar, and what is no entry is left out afterwards. Leaving
out keeps the order, so it is enough that the places grow. -/

theorem pairwise_snd_zipIdx {α : Type} (l : List α) :
    l.zipIdx.Pairwise fun p q ↦ p.2 < q.2 := by
  rw [← List.pairwise_map (R := (· < ·)), List.zipIdx_map_snd]
  exact List.pairwise_lt_range'

theorem pairwise_entriesOf (i : Nat) (source : String) (bar : List (String × Json)) :
    (entriesOf i source bar).Pairwise ModuleEntry.Before := by
  rw [entriesOf, List.pairwise_filterMap]
  refine (pairwise_snd_zipIdx bar).imp fun hlt e he e' he' ↦ ?_
  obtain ⟨name, members, -, -, -, rfl⟩ := entryAt?_eq_some_iff.mp he
  obtain ⟨name', members', -, -, -, rfl⟩ := entryAt?_eq_some_iff.mp he'
  exact .right _ hlt

theorem pairwise_barsOf (config : Json) : (barsOf config).Pairwise fun b b' ↦ b.1 < b'.1 := by
  cases config with
  | array bars =>
    rw [barsOf, List.pairwise_filterMap]
    refine (pairwise_snd_zipIdx bars).imp fun hlt b hb b' hb' ↦ ?_
    obtain ⟨bar, -, rfl⟩ := Option.map_eq_some_iff.mp hb
    obtain ⟨bar', -, rfl⟩ := Option.map_eq_some_iff.mp hb'
    exact hlt
  | object bar => exact List.pairwise_singleton _ _
  | null | bool _ | number _ | string _ => exact .nil

/-- **The entries come in the order of the document.** -/
theorem pairwise_entries (config : Json) : (entries config).Pairwise ModuleEntry.Before := by
  rw [entries, List.pairwise_flatMap]
  constructor
  · exact fun b _ ↦ pairwise_entriesOf _ _ _
  · refine (pairwise_barsOf config).imp fun hlt e he e' he' ↦ ?_
    obtain ⟨j, name, members, -, -, rfl⟩ := mem_entriesOf.mp he
    obtain ⟨j', name', members', -, -, rfl⟩ := mem_entriesOf.mp he'
    exact .left _ _ hlt

/-! ## Modules and entries

Modules and entries are found by the same walk over the configuration. So the modules are had from
the entries by a map, without another look at keys and values. -/

theorem sections_eq_map (config : Json) : sections config = (barsOf config).map Prod.snd := by
  cases config with
  | array bars =>
    rw [sections, barsOf, List.map_filterMap]
    refine List.filterMap_congr fun p _ ↦ ?_
    rw [Option.map_map]
    rfl
  | object bar => rfl
  | null | bool _ | number _ | string _ => rfl

theorem moduleOfMember?_eq_map (i j : Nat) (source : String) (options : Options)
    (member : String × Json) : moduleOfMember? source options member =
      (entryAt? i source (member, j)).map (ModuleEntry.describe · options) := by
  rw [moduleOfMember?, entryAt?]
  cases moduleName? member.1 with
  | none => rfl
  | some name =>
    cases member.2.object? with
    | none => rfl
    | some members => rfl

theorem filterMap_moduleOfMember? (i : Nat) (source : String) (options : Options)
    (bar : List (String × Json)) :
    bar.filterMap (moduleOfMember? source options) =
      (entriesOf i source bar).map (ModuleEntry.describe · options) := by
  rw [entriesOf, List.map_filterMap]
  conv_lhs => rw [← List.zipIdx_map_fst 0 bar, List.filterMap_map]
  exact List.filterMap_congr fun p _ ↦ moduleOfMember?_eq_map i p.2 source options p.1

/-- **One module for each entry.** -/
theorem candidates_eq_map (config : Json) (options : Options) :
    candidates config options = (entries config).map (ModuleEntry.describe · options) := by
  rw [candidates, sections_eq_map, entries, List.flatMap_map, List.map_flatMap]
  exact List.flatMap_congr fun b _ ↦ filterMap_moduleOfMember? b.1 b.2.1 options b.2.2

theorem map_name_extract (config : Json) (options : Options) :
    (extract config options).map (·.name) = uniqueNames ((entries config).map (·.name)) := by
  rw [extract, map_name_uniquelyNamed, candidates_eq_map, List.map_map]
  rfl

theorem forall₂_extract (config : Json) (options : Options) :
    List.Forall₂ (fun e m ↦ m = CustomModule.ofMembers m.name e.source e.members options)
      (entries config) (extract config options) := by
  have hlength : (uniqueNames ((candidates config options).map (·.name))).length =
      (candidates config options).length := by
    rw [length_uniqueNames, List.length_map]
  have hnamed := forall₂_zipWith_name hlength
  rw [← uniquelyNamed, ← extract, candidates_eq_map, List.forall₂_map_left_iff] at hnamed
  exact hnamed

theorem extract_congr {config config' : Json} (options : Options)
    (h : (entries config').map ModuleEntry.content = (entries config).map ModuleEntry.content) :
    extract config' options = extract config options := by
  have hcontent : ∀ config, candidates config options =
      ((entries config).map ModuleEntry.content).map
        fun c ↦ CustomModule.ofMembers c.2.1 c.1 c.2.2 options := by
    intro config
    rw [candidates_eq_map, List.map_map]
    rfl
  rw [extract, extract, hcontent, hcontent, h]

/-- **The modules of a configuration are its entries.** The entries are what stands in the
configuration under a key of the right form, in the order of the document. There is one module for
each of them, in this order, and it is what the label and the object of the entry describe under the
name it is given. Names are given in view of the names of the entries, and nothing but labels, names
and objects of the entries matters. -/
theorem extract_describes_entries (config : Json) (options : Options) :
    (∀ e, e ∈ entries config ↔ e.StandsIn config) ∧ (entries config).Pairwise ModuleEntry.Before ∧
      List.Forall₂ (fun e m ↦ m = CustomModule.ofMembers m.name e.source e.members options)
        (entries config) (extract config options) ∧
      (extract config options).map (·.name) = uniqueNames ((entries config).map (·.name)) ∧
      ∀ config',
        (entries config').map ModuleEntry.content = (entries config).map ModuleEntry.content →
          extract config' options = extract config options :=
  ⟨fun _ ↦ mem_entries_iff, pairwise_entries config, forall₂_extract config options,
    map_name_extract config options, fun _ h ↦ extract_congr options h⟩

/-- What is no bar, and what is no module, is counted and otherwise passed over. -/
example : (entries (.array [.null, .object [("clock", .object []), ("custom/", .object []),
    ("custom/a/b", .object []), ("custom/c", .string "date")]])).map
      (fun e ↦ (e.place, e.source, e.name)) = [((1, 2), "config[1]", "a/b")] := by
  decide +kernel

end BarBridge
