import BarBridge.Proofs.Module.Stems

/-!
# A configuration around one object

`Surroundings` are a configuration with the object under one key left open. Whatever is put there,
the modules found are the same ones, in the same order, and only the one under the key is made from
the object. Names are given out across all modules, with counters that go from one to the next, so
the one thing that could carry over is a name; but names come from keys alone, and the keys are part
of the surroundings.

The result is stated by places: two lists agree save at the place of the open object, if the key is
that of a module and there is such a place.
-/

namespace BarBridge

/-! ## Lists that agree but at one place

Everything that is made of the modules comes in lists that are in the same order. So the module in
question is known by its place, which is the same in all of them, and not by its name. -/

/-- Whether two lists agree, save at one place if there is one. -/
structure AgreeBut {α : Type} (place : Option Nat) (l l' : List α) : Prop where
  length_eq : l.length = l'.length
  getElem?_eq : ∀ i, some i ≠ place → l[i]? = l'[i]?

/-- What stands at the place, if anything does. -/
def atPlace {α : Type} (place : Option Nat) (l : List α) : Option α :=
  place.bind (l[·]?)

theorem atPlace_map {α β : Type} (place : Option Nat) (f : α → β) (l : List α) :
    atPlace place (l.map f) = (atPlace place l).map f := by
  cases place with
  | none => rfl
  | some i => exact List.getElem?_map

namespace AgreeBut

variable {α β : Type} {place : Option Nat} {l l' : List α}

theorem map (h : AgreeBut place l l') (f : α → β) : AgreeBut place (l.map f) (l'.map f) where
  length_eq := by rw [List.length_map, List.length_map, h.length_eq]
  getElem?_eq i hi := by rw [List.getElem?_map, List.getElem?_map, h.getElem?_eq i hi]

theorem append (front back : List α) (own own' : Option α) (h : own.isSome = own'.isSome) :
    AgreeBut (own.map fun _ ↦ front.length) (front ++ own.toList ++ back)
      (front ++ own'.toList ++ back) where
  length_eq := by
    rw [List.length_append, List.length_append, List.length_append, List.length_append,
      Option.length_toList, Option.length_toList, h]
  getElem?_eq i hi := by
    cases own with
    | none =>
      obtain rfl : own' = none := Option.not_isSome_iff_eq_none.mp (by rw [← h]; nofun)
      rfl
    | some a =>
      obtain ⟨a', rfl⟩ := Option.isSome_iff_exists.mp (h.symm.trans rfl)
      have hne : i ≠ front.length := fun hlength ↦ hi (congrArg some hlength)
      rw [List.append_assoc, List.append_assoc]
      rcases Nat.lt_or_ge i front.length with hlt | hge
      · rw [List.getElem?_append_left hlt, List.getElem?_append_left hlt]
      · obtain ⟨k, rfl⟩ : ∃ k, i = front.length + (k + 1) := ⟨i - front.length - 1, by omega⟩
        rw [List.getElem?_append_right hge, List.getElem?_append_right hge,
          Nat.add_sub_cancel_left]
        rfl

theorem split (h : AgreeBut place l l') :
    ∃ front back, l = front ++ (atPlace place l).toList ++ back ∧
      l' = front ++ (atPlace place l').toList ++ back := by
  cases place with
  | none =>
    have heq : l = l' := List.ext_getElem? fun i ↦ h.getElem?_eq i nofun
    refine ⟨l, [], ?_, ?_⟩
    · exact ((List.append_nil _).trans (List.append_nil _)).symm
    · exact (((List.append_nil _).trans (List.append_nil _)).trans heq).symm
  | some i =>
    have htake : l.take i = l'.take i := by
      refine List.ext_getElem? fun j ↦ ?_
      rw [List.getElem?_take, List.getElem?_take]
      split
      · next hlt => exact h.getElem?_eq j fun hj ↦ absurd (Option.some.inj hj) (Nat.ne_of_lt hlt)
      · rfl
    have hdrop : l.drop (i + 1) = l'.drop (i + 1) := by
      refine List.ext_getElem? fun j ↦ ?_
      rw [List.getElem?_drop, List.getElem?_drop]
      exact h.getElem?_eq _ fun hj ↦ absurd (Option.some.inj hj) (by omega)
    refine ⟨l.take i, l.drop (i + 1), ?_, ?_⟩
    · rw [atPlace, Option.bind_some, ← List.take_add_one, List.take_append_drop]
    · rw [htake, hdrop, atPlace, Option.bind_some, ← List.take_add_one, List.take_append_drop]

theorem flatMap_eq (h : AgreeBut place l l') {f : α → List β}
    (hl : ∀ a ∈ atPlace place l, f a = []) (hl' : ∀ a ∈ atPlace place l', f a = []) :
    l.flatMap f = l'.flatMap f := by
  have hnone : ∀ own : Option α, (∀ a ∈ own, f a = []) → own.toList.flatMap f = [] := by
    intro own hown
    refine List.flatMap_eq_nil_iff.mpr fun a ha ↦ hown a (Option.mem_toList.mp ha)
  obtain ⟨front, back, hsplit, hsplit'⟩ := h.split
  rw [hsplit, hsplit', List.flatMap_append, List.flatMap_append, List.flatMap_append,
    List.flatMap_append, hnone _ hl, hnone _ hl']

theorem filter_eq (h : AgreeBut place l l') {p : α → Bool}
    (hl : ∀ a ∈ atPlace place l, p a = false) (hl' : ∀ a ∈ atPlace place l', p a = false) :
    l.filter p = l'.filter p := by
  have hflat : ∀ l : List α, l.filter p = l.flatMap fun a ↦ [a].filter p := by
    intro l
    rw [← List.filter_flatMap, List.flatMap_singleton']
  rw [hflat, hflat]
  refine h.flatMap_eq (fun a ha ↦ ?_) fun a ha ↦ ?_
  · exact List.filter_cons_of_neg (by simp [hl a ha])
  · exact List.filter_cons_of_neg (by simp [hl' a ha])

end AgreeBut

theorem AgreeBut.uniquelyNamed {place : Option Nat} {modules modules' : List CustomModule}
    (h : AgreeBut place modules modules')
    (hnames : modules.map (·.name) = modules'.map (·.name)) :
    AgreeBut place (uniquelyNamed modules) (uniquelyNamed modules') where
  length_eq := by
    simp only [BarBridge.uniquelyNamed, List.length_zipWith, hnames, h.length_eq]
  getElem?_eq i hi := by
    rw [BarBridge.uniquelyNamed, BarBridge.uniquelyNamed, List.getElem?_zipWith,
      List.getElem?_zipWith, hnames, h.getElem?_eq i hi]

/-! ## Surroundings

The label of a bar is its place in the list of bars. The object leaves the list as long as it was,
so the bars behind it keep their labels. -/

/-- A configuration but for the object under one key: the members of its section on either side,
and the elements on either side of the section where the configuration is a list. -/
structure Surroundings where
  before : List (String × Json)
  after : List (String × Json)
  bars : Option (List Json × List Json)

namespace Surroundings

variable (s : Surroundings) (key : String) (options : Options)

/-- The configuration with an object put under the key. -/
def config (members : List (String × Json)) : Json :=
  let bar := .object (s.before ++ (key, .object members) :: s.after)
  match s.bars with
  | none => bar
  | some (earlier, later) => .array (earlier ++ bar :: later)

/-- The label of the section that the key stands in. -/
def label : String :=
  match s.bars with
  | none => "config"
  | some (earlier, _) => s!"config[{earlier.length}]"

/-- The modules in front of the key. -/
def front : List CustomModule :=
  (match s.bars with
    | none => []
    | some (earlier, _) => candidates (.array earlier) options) ++
  s.before.filterMap (moduleOfMember? s.label options)

/-- Where the module under the key comes, if the key is one of a module. -/
def place : Option Nat :=
  (moduleName? key).map fun _ ↦ (s.front options).length

theorem moduleOfMember?_object (source : String) (members : List (String × Json)) :
    moduleOfMember? source options (key, .object members) =
      (moduleName? key).map (CustomModule.ofMembers · source members options) := by
  rw [moduleOfMember?]
  cases moduleName? key with
  | none => rfl
  | some name => rfl

theorem filterMap_section (source : String) (members : List (String × Json)) :
    (s.before ++ (key, .object members) :: s.after).filterMap (moduleOfMember? source options) =
      s.before.filterMap (moduleOfMember? source options) ++
        ((moduleName? key).map (CustomModule.ofMembers · source members options)).toList ++
        s.after.filterMap (moduleOfMember? source options) := by
  rw [List.filterMap_append, List.filterMap_cons, moduleOfMember?_object, List.append_assoc]
  cases moduleName? key with
  | none => rfl
  | some name => rfl

theorem exists_candidates_array (earlier later : List Json) : ∃ rest, ∀ bar,
    candidates (.array (earlier ++ .object bar :: later)) options =
      candidates (.array earlier) options ++
        bar.filterMap (moduleOfMember? s!"config[{earlier.length}]" options) ++ rest := by
  refine ⟨((later.zipIdx (earlier.length + 1)).filterMap fun p ↦
    p.1.object?.map fun members ↦ (s!"config[{p.2}]", members)).flatMap fun p ↦
      p.2.filterMap (moduleOfMember? p.1 options), fun bar ↦ ?_⟩
  simp only [candidates, sections, List.zipIdx_append, List.zipIdx_cons, List.filterMap_append,
    List.filterMap_cons, Json.object?, Option.map_some, List.flatMap_append, List.flatMap_cons,
    List.append_assoc, Nat.zero_add]

/-- **Only the module under the key is made from the object.** -/
theorem exists_candidates : ∃ back, ∀ members, candidates (s.config key members) options =
    s.front options ++
      ((moduleName? key).map (CustomModule.ofMembers · s.label members options)).toList ++
      back := by
  cases hbars : s.bars with
  | none =>
    refine ⟨s.after.filterMap (moduleOfMember? s.label options), fun members ↦ ?_⟩
    have hconfig : candidates (s.config key members) options =
        (s.before ++ (key, .object members) :: s.after).filterMap
          (moduleOfMember? s.label options) := by
      rw [config, label, hbars]
      exact List.append_nil _
    rw [hconfig, filterMap_section, front, hbars, List.nil_append]
  | some bars =>
    obtain ⟨earlier, later⟩ := bars
    obtain ⟨rest, hrest⟩ := exists_candidates_array options earlier later
    refine ⟨s.after.filterMap (moduleOfMember? s.label options) ++ rest, fun members ↦ ?_⟩
    have hconfig : candidates (s.config key members) options =
        candidates (.array earlier) options ++
          (s.before ++ (key, .object members) :: s.after).filterMap
            (moduleOfMember? s.label options) ++ rest := by
      rw [config, label, hbars]
      exact hrest _
    rw [hconfig, filterMap_section, front, hbars]
    simp only [List.append_assoc]

theorem exists_names : ∃ names, ∀ members,
    (candidates (s.config key members) options).map (·.name) = names := by
  obtain ⟨back, hback⟩ := s.exists_candidates key options
  refine ⟨(s.front options).map (·.name) ++ (moduleName? key).toList ++ back.map (·.name),
    fun members ↦ ?_⟩
  rw [hback, List.map_append, List.map_append]
  cases moduleName? key with
  | none => rfl
  | some name => rfl

theorem agreeBut_candidates (members members' : List (String × Json)) :
    AgreeBut (s.place key options) (candidates (s.config key members) options)
      (candidates (s.config key members') options) := by
  obtain ⟨back, hback⟩ := s.exists_candidates key options
  rw [hback, hback]
  have hagree := AgreeBut.append (s.front options) back
    ((moduleName? key).map (CustomModule.ofMembers · s.label members options))
    ((moduleName? key).map (CustomModule.ofMembers · s.label members' options))
    (by rw [Option.isSome_map, Option.isSome_map])
  rwa [Option.map_map] at hagree

/-- **The names of all modules are settled by the surroundings.** -/
theorem names_extract (members members' : List (String × Json)) :
    (extract (s.config key members) options).map (·.name) =
      (extract (s.config key members') options).map (·.name) := by
  obtain ⟨names, hnames⟩ := s.exists_names key options
  rw [extract, extract, map_name_uniquelyNamed, map_name_uniquelyNamed, hnames, hnames]

/-- **Every other module is settled by the surroundings.** -/
theorem agreeBut_extract (members members' : List (String × Json)) :
    AgreeBut (s.place key options) (extract (s.config key members) options)
      (extract (s.config key members') options) := by
  obtain ⟨names, hnames⟩ := s.exists_names key options
  exact (s.agreeBut_candidates key options members members').uniquelyNamed
    ((hnames members).trans (hnames members').symm)

/-- At the place of the key comes the module that the object describes, under a name that does not
depend on it. -/
theorem exists_own {i : Nat} (hi : s.place key options = some i) :
    ∃ name, ∀ members, (extract (s.config key members) options)[i]? =
      some (CustomModule.ofMembers name s.label members options) := by
  obtain ⟨back, hback⟩ := s.exists_candidates key options
  obtain ⟨names, hnames⟩ := s.exists_names key options
  obtain ⟨stated, hstated, rfl⟩ := Option.map_eq_some_iff.mp hi
  have hown : ∀ members, (candidates (s.config key members) options)[(s.front options).length]? =
      some (CustomModule.ofMembers stated s.label members options) := by
    intro members
    rw [hback, hstated, List.append_assoc, List.getElem?_append_right (Nat.le_refl _),
      Nat.sub_self]
    rfl
  -- There are as many names as modules, so one of them belongs to this place.
  have hlt : (s.front options).length < (uniqueNames names).length := by
    obtain ⟨hlength, -⟩ := List.getElem?_eq_some_iff.mp (hown [])
    rwa [length_uniqueNames, ← hnames [], List.length_map]
  refine ⟨(uniqueNames names)[(s.front options).length], fun members ↦ ?_⟩
  rw [extract, uniquelyNamed, hnames, List.getElem?_zipWith, hown, List.getElem?_eq_getElem hlt]
  rfl

end Surroundings

end BarBridge
