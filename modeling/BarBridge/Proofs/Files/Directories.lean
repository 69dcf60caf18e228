import Mathlib.Data.List.Basic
import BarBridge.Files.Tree

/-!
# Directories on the way

Making the directories of a path leaves everything that is there as it is: locations at which there
was nothing may become directories, and that is all (`Grown`). Once they are made, the same path can
be walked, and made again without effect, in every later tree that has kept its directories.

## Names without two dots

Names that go down only are needed in more detail. Which directories are made can then be told from
the locations alone (`Between`), and whether they can be made is a question to be asked of each of
these locations in the tree as it was before (`makeDirectories_eq_some`, `exists_makeDirectories`).
That the answer does not depend on the order in which they are made is what lets files be written
independently of each other.
-/

namespace BarBridge.FileTree

/-! ## What stays

Between two attempts at a path files may have been written, so the later tree is not grown from the
earlier one. But writing a file takes no directory away either, and this is as much as a second
attempt needs. -/

/-- Every directory of a tree is one of the other. -/
def KeepsDirectories (t t' : FileTree) : Prop :=
  ∀ loc, t.lookup? loc = some .directory → t'.lookup? loc = some .directory

/-- A tree with directories added where there was nothing. -/
structure Grown (t t' : FileTree) : Prop where
  limits : t'.limits = t.limits
  lookup? : ∀ loc, t'.lookup? loc = t.lookup? loc ∨
    t.lookup? loc = none ∧ t'.lookup? loc = some .directory

theorem Grown.refl (t : FileTree) : Grown t t :=
  ⟨rfl, fun _ ↦ .inl rfl⟩

theorem Grown.trans {t t' t'' : FileTree} (h : Grown t t') (h' : Grown t' t'') : Grown t t'' where
  limits := h'.limits.trans h.limits
  lookup? loc := by
    rcases h.lookup? loc with heq | ⟨hnone, hdirectory⟩
    · rw [← heq]
      exact h'.lookup? loc
    · refine .inr ⟨hnone, ?_⟩
      rcases h'.lookup? loc with heq' | ⟨hnone', -⟩
      · rw [heq', hdirectory]
      · exact nomatch hnone'.symm.trans hdirectory

theorem Grown.keepsDirectories {t t' : FileTree} (h : Grown t t') : KeepsDirectories t t' := by
  intro loc hloc
  rcases h.lookup? loc with heq | ⟨hnone, -⟩
  · rw [heq, hloc]
  · exact nomatch hnone.symm.trans hloc

theorem KeepsDirectories.trans {t t' t'' : FileTree} (h : KeepsDirectories t t')
    (h' : KeepsDirectories t' t'') : KeepsDirectories t t'' :=
  fun loc hloc ↦ h' loc (h loc hloc)

theorem grown_set_directory {t : FileTree} {loc : Location} (h : t.lookup? loc = none) :
    Grown t (t.set loc .directory) where
  limits := rfl
  lookup? loc' := by
    have hroot : loc ≠ [] := by
      rintro rfl
      exact nomatch h
    by_cases heq : loc' = loc
    · subst heq
      exact .inr ⟨h, lookup?_set_self t hroot _⟩
    · exact .inl (lookup?_set_of_ne t heq _)

/-! ## Making directories, name by name

Of the many cases of a name three succeed. `exists_enters` takes the first name off a list of names
for which all went well and says which of the three it was. The inductions that start from a success
go by it. -/

section Names

variable {t t' : FileTree} {loc l : Location} {name : String} {names : List String}

theorem makeDirectories_up (h : t.lookup? loc = some .directory) :
    t.makeDirectories loc (".." :: names) = t.makeDirectories loc.dropLast names := by
  rw [makeDirectories, h, if_pos rfl]

theorem makeDirectories_down (h : t.lookup? loc = some .directory) (hname : name ≠ "..")
    (hdown : t.lookup? (loc ++ [name]) = some .directory) :
    t.makeDirectories loc (name :: names) = t.makeDirectories (loc ++ [name]) names := by
  rw [makeDirectories, h, if_neg hname, hdown]

theorem makeDirectories_new (h : t.lookup? loc = some .directory) (hname : name ≠ "..")
    (hdown : t.lookup? (loc ++ [name]) = none) (hfits : t.fitsName name = true) :
    t.makeDirectories loc (name :: names) =
      (t.set (loc ++ [name]) .directory).makeDirectories (loc ++ [name]) names := by
  rw [makeDirectories, h, if_neg hname, hdown, if_pos hfits]

/-- What a first name is: two dots, a directory, or a directory to be made. -/
inductive Enters (t : FileTree) (loc : Location) : String → FileTree → Location → Prop where
  | up : Enters t loc ".." t loc.dropLast
  | down {name : String} (hname : name ≠ "..")
      (hdown : t.lookup? (loc ++ [name]) = some .directory) : Enters t loc name t (loc ++ [name])
  | new {name : String} (hname : name ≠ "..") (hdown : t.lookup? (loc ++ [name]) = none)
      (hfits : t.fitsName name = true) :
      Enters t loc name (t.set (loc ++ [name]) .directory) (loc ++ [name])

theorem exists_enters (h : t.makeDirectories loc (name :: names) = (t', some l)) :
    t.lookup? loc = some .directory ∧ ∃ u next, Enters t loc name u next ∧
      u.makeDirectories next names = (t', some l) := by
  rw [makeDirectories] at h
  split at h
  · next hloc =>
    refine ⟨hloc, ?_⟩
    split at h
    · next hdots =>
      subst hdots
      exact ⟨_, _, .up, h⟩
    · next hname =>
      split at h
      · next hdown => exact ⟨_, _, .down hname hdown, h⟩
      · exact nomatch h
      · next hdown =>
        split at h
        · next hfits => exact ⟨_, _, .new hname hdown hfits, h⟩
        · exact nomatch h
  · exact nomatch h

theorem Enters.grown {u : FileTree} {next : Location} (h : Enters t loc name u next) :
    Grown t u := by
  cases h with
  | up => exact .refl t
  | down _ _ => exact .refl t
  | new _ hdown _ => exact grown_set_directory hdown

theorem Enters.makeDirectories_eq {u : FileTree} {next : Location} (h : Enters t loc name u next)
    (hloc : t.lookup? loc = some .directory) (names : List String) :
    t.makeDirectories loc (name :: names) = u.makeDirectories next names := by
  cases h with
  | up => exact makeDirectories_up hloc
  | down hname hdown => exact makeDirectories_down hloc hname hdown
  | new hname hdown hfits => exact makeDirectories_new hloc hname hdown hfits

end Names

theorem grown_of_makeDirectories {t t' : FileTree} {loc l : Location} {names : List String}
    (h : t.makeDirectories loc names = (t', some l)) : Grown t t' := by
  induction names generalizing t loc with
  | nil =>
    obtain ⟨rfl, -⟩ := Prod.mk.inj h
    exact .refl t
  | cons name names ih =>
    obtain ⟨-, u, next, henters, hrest⟩ := exists_enters h
    exact henters.grown.trans (ih hrest)

theorem Enters.again {t u t'' : FileTree} {loc next : Location} {name : String}
    (h : Enters t loc name u next) (hkeeps : KeepsDirectories u t'') :
    Enters t'' loc name t'' next ∧ (name ≠ ".." → t''.lookup? next = some .directory) := by
  cases h with
  | up => exact ⟨.up, fun h ↦ absurd rfl h⟩
  | down hname hdown => exact ⟨.down hname (hkeeps _ hdown), fun _ ↦ hkeeps _ hdown⟩
  | new hname hdown hfits =>
    have hmade := hkeeps _ (lookup?_set_self t (by simp) .directory)
    exact ⟨.down hname hmade, fun _ ↦ hmade⟩

/-- **Directories that are made are made for good.** -/
theorem makeDirectories_again {t t' t'' : FileTree} {loc l : Location} {names : List String}
    (h : t.makeDirectories loc names = (t', some l)) (hkeeps : KeepsDirectories t' t'') :
    t''.makeDirectories loc names = (t'', some l) := by
  induction names generalizing t loc with
  | nil =>
    obtain ⟨-, hl⟩ := Prod.mk.inj h
    rw [makeDirectories, hl]
  | cons name names ih =>
    obtain ⟨hloc, u, next, henters, hrest⟩ := exists_enters h
    have hlater := (grown_of_makeDirectories hrest).keepsDirectories.trans hkeeps
    rw [(henters.again hlater).1.makeDirectories_eq
      (hlater _ (henters.grown.keepsDirectories _ hloc))]
    exact ih hrest

/-- **A path whose directories are made can be walked.** -/
theorem walk_of_makeDirectories {t t' t'' : FileTree} {loc l : Location} {names : List String}
    (h : t.makeDirectories loc names = (t', some l)) (hkeeps : KeepsDirectories t' t'') :
    t''.walk loc names = some l := by
  induction names generalizing t loc with
  | nil =>
    obtain ⟨-, hl⟩ := Prod.mk.inj h
    rw [walk, hl]
  | cons name names ih =>
    obtain ⟨hloc, u, next, henters, hrest⟩ := exists_enters h
    have hlater := (grown_of_makeDirectories hrest).keepsDirectories.trans hkeeps
    have hnext := (henters.again hlater).2
    rw [walk, hlater _ (henters.grown.keepsDirectories _ hloc)]
    cases henters with
    | up => exact (if_pos rfl).trans (ih hrest)
    | down hname _ | new hname _ _ =>
      simp only [if_neg hname, hnext hname, Option.isSome_some, if_true]
      exact ih hrest

theorem makeDirectories_append (t : FileTree) (loc : Location) (names names' : List String) :
    t.makeDirectories loc (names ++ names') =
      match t.makeDirectories loc names with
      | (t', some l) => t'.makeDirectories l names'
      | (t', none) => (t', none) := by
  induction names generalizing t loc with
  | nil => rfl
  | cons name names ih =>
    rw [List.cons_append, makeDirectories, makeDirectories]
    split
    · split
      · exact ih t _
      · split
        · exact ih t _
        · rfl
        · split
          · exact ih _ _
          · rfl
    · rfl

theorem walk_append {t : FileTree} {loc l : Location} {names : List String}
    (h : t.walk loc names = some l) (names' : List String) :
    t.walk loc (names ++ names') = t.walk l names' := by
  induction names generalizing loc with
  | nil =>
    rw [walk] at h
    rw [List.nil_append, Option.some.inj h]
  | cons name names ih =>
    rw [walk] at h
    rw [List.cons_append, walk]
    split at h
    · split at h
      · next hdots => exact (if_pos hdots).trans (ih h)
      · next hname =>
        split at h
        · next hdown =>
          simp only [if_neg hname, if_pos hdown]
          exact ih h
        · exact nomatch h
    · exact nomatch h

/-! ## Names that go down -/

/-- Whether names from `base` to `target` lead through a location, the target included. -/
structure Between (base target loc : Location) : Prop where
  below : base <+: loc
  ne : base ≠ loc
  above : loc <+: target

theorem not_between_self (base loc : Location) : ¬Between base base loc :=
  fun h ↦ h.ne (h.below.eq_of_length_le h.above.length_le)

theorem between_append_iff {base names names' : Location} :
    Between base (base ++ names) (base ++ names') ↔ names' ≠ [] ∧ names' <+: names := by
  constructor
  · rintro ⟨-, hne, habove⟩
    exact ⟨fun h ↦ hne (by rw [h, List.append_nil]), (List.prefix_append_right_inj base).mp habove⟩
  · rintro ⟨hne, hprefix⟩
    exact ⟨List.prefix_append base names', fun h ↦ hne (by simpa using h),
      (List.prefix_append_right_inj base).mpr hprefix⟩

theorem Between.head (base : Location) (name : String) (names : List String) :
    Between base (base ++ name :: names) (base ++ [name]) where
  below := List.prefix_append base _
  ne h := by simp at h
  above := (List.prefix_append_right_inj base).mpr ⟨names, rfl⟩

theorem Between.dropLast {base names loc : Location} (h : Between base (base ++ names) loc)
    (hne : loc ≠ base ++ names) : Between base (base ++ names.dropLast) loc := by
  obtain ⟨rest, rfl⟩ := h.below
  obtain ⟨hrest, more, rfl⟩ := between_append_iff.mp h
  have hmore : more ≠ [] := by
    rintro rfl
    exact hne (by rw [List.append_nil])
  rw [List.dropLast_append_of_ne_nil hmore]
  exact between_append_iff.mpr ⟨hrest, List.prefix_append rest _⟩

theorem between_cons {base loc : Location} {name : String} {names : List String} :
    Between base (base ++ name :: names) loc ↔
      loc = base ++ [name] ∨ Between (base ++ [name]) ((base ++ [name]) ++ names) loc := by
  have hassoc : ∀ names, base ++ name :: names = (base ++ [name]) ++ names :=
    List.append_cons base name
  constructor
  · intro h
    obtain ⟨rest, rfl⟩ := h.below
    obtain ⟨hrest, hprefix⟩ := between_append_iff.mp h
    obtain ⟨n, rest, rfl⟩ := List.exists_cons_of_ne_nil hrest
    obtain ⟨rfl, htail⟩ := List.cons_prefix_cons.mp hprefix
    by_cases hnil : rest = []
    · exact .inl (by rw [hnil])
    · rw [hassoc rest]
      exact .inr (between_append_iff.mpr ⟨hnil, htail⟩)
  · rintro (rfl | h)
    · exact .head base name names
    · obtain ⟨rest, rfl⟩ := h.below
      obtain ⟨-, hprefix⟩ := between_append_iff.mp h
      rw [← hassoc rest]
      exact between_append_iff.mpr
        ⟨List.cons_ne_nil name rest, List.cons_prefix_cons.mpr ⟨rfl, hprefix⟩⟩

/-- Whether a location can be made a directory, or is one. -/
def MayBeDirectory (t : FileTree) (loc : Location) : Prop :=
  t.lookup? loc = some .directory ∨
    t.lookup? loc = none ∧ ∀ name ∈ loc.getLast?, t.fitsName name = true

theorem MayBeDirectory.congr {t t' : FileTree} {loc : Location} (hlimits : t'.limits = t.limits)
    (hloc : t'.lookup? loc = t.lookup? loc) (h : t.MayBeDirectory loc) : t'.MayBeDirectory loc := by
  have hfits : ∀ name, t'.fitsName name = t.fitsName name := fun name ↦ by
    rw [fitsName, fitsName, hlimits]
  simpa only [MayBeDirectory, hloc, hfits] using h

/-- What the directories below a location are if names that go down have been made: every location
on the way, and no other that was none before. -/
structure Paved (t : FileTree) (base : Location) (names : List String) (t' : FileTree) : Prop where
  limits : t'.limits = t.limits
  way : ∀ loc, Between base (base ++ names) loc → t'.lookup? loc = some .directory
  other : ∀ loc, ¬Between base (base ++ names) loc → t'.lookup? loc = t.lookup? loc

/-- What has to be there for names that go down to be made. -/
structure Passable (t : FileTree) (base : Location) (names : List String) : Prop where
  start : names ≠ [] → t.lookup? base = some .directory
  way : ∀ loc, Between base (base ++ names) loc → t.MayBeDirectory loc

theorem Enters.mayBeDirectory {t u : FileTree} {base next : Location} {name : String}
    (h : Enters t base name u next) (hname : name ≠ "..") : t.MayBeDirectory (base ++ [name]) := by
  cases h with
  | up => exact absurd rfl hname
  | down _ hdown => exact .inl hdown
  | new _ hdown hfits =>
    refine .inr ⟨hdown, fun name' hlast ↦ ?_⟩
    rw [List.getLast?_append, List.getLast?_singleton] at hlast
    exact Option.some.inj hlast ▸ hfits

theorem Enters.paved {t u : FileTree} {base next : Location} {name : String}
    (h : Enters t base name u next) (hname : name ≠ "..") :
    next = base ++ [name] ∧ u.lookup? (base ++ [name]) = some .directory ∧
      ∀ loc, loc ≠ base ++ [name] → u.lookup? loc = t.lookup? loc := by
  cases h with
  | up => exact absurd rfl hname
  | down _ hdown => exact ⟨rfl, hdown, fun _ _ ↦ rfl⟩
  | new _ _ _ =>
    exact ⟨rfl, lookup?_set_self t (by simp) _, fun loc hloc ↦ lookup?_set_of_ne t hloc _⟩

/-- **What is made on a way down.** The induction is on the names; what has been made at the first
does not stand on the way from there. -/
theorem makeDirectories_eq_some {t t' : FileTree} {base l : Location} {names : List String}
    (h : t.makeDirectories base names = (t', some l)) (hdots : ".." ∉ names) :
    l = base ++ names ∧ t.Passable base names ∧ t.Paved base names t' := by
  induction names generalizing t base with
  | nil =>
    obtain ⟨rfl, hl⟩ := Prod.mk.inj h
    have hnone : ∀ loc, ¬Between base (base ++ []) loc := by
      rw [List.append_nil]
      exact not_between_self base
    exact ⟨by rw [List.append_nil, Option.some.inj hl],
      ⟨fun h ↦ absurd rfl h, fun loc hloc ↦ absurd hloc (hnone loc)⟩,
      ⟨rfl, fun loc hloc ↦ absurd hloc (hnone loc), fun _ _ ↦ rfl⟩⟩
  | cons name names ih =>
    rw [List.mem_cons, not_or] at hdots
    have hname := Ne.symm hdots.1
    obtain ⟨hbase, u, next, henters, hrest⟩ := exists_enters h
    obtain ⟨rfl, hmade, hsame⟩ := henters.paved hname
    obtain ⟨rfl, hpassable, hpaved⟩ := ih hrest hdots.2
    have hlimits := henters.grown.limits
    -- The first location on the way is not on the way from there.
    have hfirst : ¬Between (base ++ [name]) ((base ++ [name]) ++ names) (base ++ [name]) :=
      fun h ↦ h.ne rfl
    refine ⟨by simp, ⟨fun _ ↦ hbase, fun loc hloc ↦ ?_⟩, ⟨hpaved.limits.trans hlimits,
      fun loc hloc ↦ ?_, fun loc hloc ↦ ?_⟩⟩
    · rcases between_cons.mp hloc with rfl | hloc
      · exact henters.mayBeDirectory hname
      · exact (hpassable.way loc hloc).congr hlimits.symm (hsame loc hloc.ne.symm).symm
    · rcases between_cons.mp hloc with rfl | hloc
      · rw [hpaved.other _ hfirst, hmade]
      · exact hpaved.way loc hloc
    · rw [between_cons, not_or] at hloc
      rw [hpaved.other loc hloc.2, hsame loc hloc.1]

/-- **A passable way can be made.** -/
theorem exists_makeDirectories {t : FileTree} {base : Location} {names : List String}
    (h : t.Passable base names) (hdots : ".." ∉ names) :
    ∃ t', t.makeDirectories base names = (t', some (base ++ names)) := by
  induction names generalizing t base with
  | nil => exact ⟨t, by rw [makeDirectories, List.append_nil]⟩
  | cons name names ih =>
    rw [List.mem_cons, not_or] at hdots
    have hname := Ne.symm hdots.1
    have hbase := h.start (List.cons_ne_nil name names)
    have hassoc : base ++ name :: names = (base ++ [name]) ++ names := by simp
    obtain ⟨u, henters⟩ : ∃ u, Enters t base name u (base ++ [name]) := by
      rcases h.way _ (.head base name names) with hdown | ⟨hdown, hfits⟩
      · exact ⟨t, .down hname hdown⟩
      · exact ⟨_, .new hname hdown (hfits name (by simp))⟩
    obtain ⟨-, hmade, hsame⟩ := henters.paved hname
    have hpassable : u.Passable (base ++ [name]) names := by
      refine ⟨fun _ ↦ hmade, fun loc hloc ↦ ?_⟩
      exact (h.way loc (between_cons.mpr (.inr hloc))).congr henters.grown.limits
        (hsame loc hloc.ne.symm)
    rw [henters.makeDirectories_eq hbase, hassoc]
    exact ih hpassable hdots.2

theorem eq_append_of_walk {t : FileTree} {base loc : Location} {names : List String}
    (hdots : ".." ∉ names) (h : t.walk base names = some loc) : loc = base ++ names := by
  induction names generalizing base with
  | nil =>
    rw [walk] at h
    rw [List.append_nil, Option.some.inj h]
  | cons name names ih =>
    rw [List.mem_cons, not_or] at hdots
    rw [walk, if_neg (Ne.symm hdots.1)] at h
    split at h
    · split at h
      · rw [ih hdots.2 h, List.append_assoc, List.singleton_append]
      · exact nomatch h
    · exact nomatch h

theorem walk_down {t : FileTree} {base : Location} {names : List String} (hdots : ".." ∉ names)
    (hbase : names ≠ [] → t.lookup? base = some .directory)
    (hway : ∀ loc, Between base (base ++ names) loc → loc ≠ base ++ names →
      t.lookup? loc = some .directory)
    (htarget : (t.lookup? (base ++ names)).isSome = true) :
    t.walk base names = some (base ++ names) := by
  induction names generalizing base with
  | nil => rw [walk, List.append_nil]
  | cons name names ih =>
    rw [List.mem_cons, not_or] at hdots
    have hassoc : base ++ name :: names = (base ++ [name]) ++ names := by simp
    have hnext : names ≠ [] → t.lookup? (base ++ [name]) = some .directory := fun hnil ↦
      hway _ (.head base name names) (by simpa using hnil.symm)
    have hsome : (t.lookup? (base ++ [name])).isSome = true := by
      by_cases hnil : names = []
      · rw [hnil] at htarget
        exact htarget
      · rw [hnext hnil]
        rfl
    rw [walk, hbase (List.cons_ne_nil name names)]
    simp only [if_neg (Ne.symm hdots.1), if_pos hsome]
    rw [hassoc] at hway htarget ⊢
    refine ih hdots.2 hnext (fun loc hloc hne ↦ hway loc ?_ hne) htarget
    rw [← hassoc]
    exact between_cons.mpr (.inr hloc)

end BarBridge.FileTree
