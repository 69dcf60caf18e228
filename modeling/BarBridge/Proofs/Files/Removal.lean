import Mathlib.Data.List.Infix
import BarBridge.Proofs.Files.Destinations

/-!
# A tree without one of its files

A file can be in the way of a path, and it can be what a path denotes. Where it is neither, it might
as well not be there: taking the file out before a path is read or written or taking it out
afterwards comes to the same (`file?_without`, `writeBatch_without`).

For reading it is enough that the path does not lead to the file. One that leads through it is
walked nowhere, since there is no way through a file and none through nothing (`walk_without`).
Writing is another matter, since nothing becomes a directory where one is needed. So a path that is
written has to avoid the location of the file all along (`Avoids`).
-/

namespace BarBridge.FileTree

open BarBridge.Path

variable {t : FileTree} {cwd root path : String} {loc l : Location} {names : List String}
  {contents : Contents}

/-- The tree without what stands at a location. -/
def without (t : FileTree) (loc : Location) : FileTree :=
  { t with entries := t.entries.filter fun x ↦ x.1 ≠ loc }

theorem fitsName_without (t : FileTree) (loc : Location) (name : String) :
    (t.without loc).fitsName name = t.fitsName name := rfl

theorem fitsPath_without (t : FileTree) (loc : Location) (path : String) :
    (t.without loc).fitsPath path = t.fitsPath path := rfl

theorem fitsPath_set (t : FileTree) (loc : Location) (e : Entry) (path : String) :
    (t.set loc e).fitsPath path = t.fitsPath path := rfl

theorem lookup?_without_self (t : FileTree) (h : loc ≠ []) :
    (t.without loc).lookup? loc = none := by
  rw [lookup?, if_neg h, List.lookup_eq_none_iff]
  intro x hx
  rw [bne_iff_ne]
  exact Ne.symm (of_decide_eq_true (List.mem_filter.mp hx).2)

theorem lookup?_without_of_ne (t : FileTree) (h : l ≠ loc) :
    (t.without loc).lookup? l = t.lookup? l := by
  rw [← lookup?_set_of_ne t h .directory, lookup?, lookup?, set, List.lookup_cons,
    beq_false_of_ne h]
  rfl

theorem without_set (t : FileTree) (h : l ≠ loc) (e : Entry) :
    (t.set l e).without loc = (t.without loc).set l e := by
  simp only [without, set, List.filter_cons, decide_eq_true h, if_true, List.filter_filter,
    Bool.and_comm]

theorem without_set_self (t : FileTree) (loc : Location) (e : Entry) :
    (t.set loc e).without loc = t.without loc := by
  rw [without, set, List.filter_cons_of_neg (by simp), List.filter_filter]
  simp only [Bool.and_self]
  rfl

theorem ne_nil_of_file (h : t.lookup? loc = some (.file contents)) : loc ≠ [] := by
  rintro rfl
  exact absurd (Option.some.inj h) Entry.noConfusion

/-! ## Reading

No walk depends on what is in a file, only on there being one. So a file can be given other contents
as well as be taken out, and what does not denote it is read the same. -/

theorem walk_of_file (h : t.lookup? loc = some (.file contents)) (hnames : names ≠ []) :
    t.walk loc names = none := by
  obtain ⟨name, names, rfl⟩ := List.exists_cons_of_ne_nil hnames
  rw [walk, h]

theorem walk_of_none (h : t.lookup? loc = none) (hnames : names ≠ []) :
    t.walk loc names = none := by
  obtain ⟨name, names, rfl⟩ := List.exists_cons_of_ne_nil hnames
  rw [walk, h]

/-- **A walk that does not lead to the file goes the same way without it.** -/
theorem walk_without (hfile : t.lookup? loc = some (.file contents)) (h : follow l names ≠ loc) :
    (t.without loc).walk l names = t.walk l names := by
  induction names generalizing l with
  | nil => rfl
  | cons name names ih =>
    have hnone := lookup?_without_self t (ne_nil_of_file hfile)
    by_cases hl : l = loc
    · rw [hl, walk_of_none hnone (List.cons_ne_nil _ _), walk_of_file hfile (List.cons_ne_nil _ _)]
    rw [walk, walk, lookup?_without_of_ne t hl]
    by_cases hdots : name = ".."
    · rw [if_pos hdots, if_pos hdots, ih (by rwa [hdots, follow_up] at h)]
    rw [follow_down hdots] at h
    rw [if_neg hdots, if_neg hdots]
    by_cases hnext : l ++ [name] = loc
    · -- The names lead on from the file, and nowhere.
      have hnames : names ≠ [] := by
        rintro rfl
        exact h hnext
      rw [hnext, hnone, walk_of_file hfile hnames]
      simp
    · rw [lookup?_without_of_ne t hnext, ih h]

/-- **A path that does not denote the file denotes the same without it.** -/
theorem file?_without (hfile : t.lookup? loc = some (.file contents))
    (h : destination cwd path ≠ loc) : (t.without loc).file? cwd path = t.file? cwd path := by
  rw [file?, file?, walk_without hfile h]
  rcases hwalk : t.walk (startOf cwd path) (components path) with _ | l
  · rfl
  · have hl : l ≠ loc := by
      rw [walk_eq_some hwalk]
      exact h
    simp only [lookup?_without_of_ne t hl, fitsPath_without]

theorem file?_without_self (hloc : loc ≠ []) (h : destination cwd path = loc) :
    (t.without loc).file? cwd path = none := by
  rw [Option.eq_none_iff_forall_ne_some]
  intro c hc
  have hat := fileAt?_eq_some_iff.mp (fileAt?_of_file? hc)
  rw [h, lookup?_without_self t hloc] at hat
  contradiction

theorem walk_set_of_file (hfile : t.lookup? loc = some (.file contents)) (c : Contents)
    (l : Location) (names : List String) :
    (t.set loc (.file c)).walk l names = t.walk l names := by
  induction names generalizing l with
  | nil => rfl
  | cons name names ih =>
    have hset := lookup?_set_self t (ne_nil_of_file hfile) (.file c)
    by_cases hl : l = loc
    · rw [hl, walk_of_file hset (List.cons_ne_nil _ _), walk_of_file hfile (List.cons_ne_nil _ _)]
    rw [walk, walk, lookup?_set_of_ne t hl, ih, ih]
    by_cases hnext : l ++ [name] = loc
    · rw [hnext, hset, hfile]
      rfl
    · rw [lookup?_set_of_ne t hnext]

theorem file?_set (h : t.file? cwd path = some contents) (c : Contents) :
    (t.set (destination cwd path) (.file c)).file? cwd path = some c := by
  have hfile := fileAt?_eq_some_iff.mp (fileAt?_of_file? h)
  have hset := lookup?_set_self t (ne_nil_of_file hfile) (.file c)
  rw [file?] at h ⊢
  rw [walk_set_of_file hfile]
  split at h
  · contradiction
  next hplain =>
  split at h
  · contradiction
  next l hwalk =>
  rw [destination, ← walk_eq_some hwalk] at hset ⊢
  refine (if_neg hplain).trans ?_
  simp only [hset]

theorem isFile_set (hfile : t.lookup? loc = some (.file contents)) (c : Contents) :
    (t.set loc (.file c)).isFile cwd path = t.isFile cwd path := by
  have hset := lookup?_set_self t (ne_nil_of_file hfile) (.file c)
  rw [isFile, isFile, file?, file?, walk_set_of_file hfile]
  rcases t.walk (startOf cwd path) (components path) with _ | l
  · rfl
  · by_cases hl : l = loc
    · simp only [hl, hset, hfile, fitsPath_set]
      split <;> rfl
    · simp only [lookup?_set_of_ne t hl, fitsPath_set]

/-! ## Writing

Avoiding is a recursion along the names, as following them is. Each step of making directories then
finds what it needs at the head of the condition and passes the rest on. -/

/-- Whether names lead neither to a location nor through it. -/
def Avoids (loc l : Location) (names : List String) : Prop :=
  ∀ first, first <+: names → follow l first ≠ loc

theorem avoids_iff : Avoids loc l names ↔ ∀ first ∈ names.inits, follow l first ≠ loc :=
  forall_congr' fun first ↦ by rw [List.mem_inits]

instance (loc l : Location) (names : List String) : Decidable (Avoids loc l names) :=
  decidable_of_iff' _ avoids_iff

theorem Avoids.start (h : Avoids loc l names) : l ≠ loc :=
  h [] List.nil_prefix

theorem Avoids.up (h : Avoids loc l (".." :: names)) : Avoids loc l.dropLast names :=
  fun first hfirst ↦ h (".." :: first) (List.cons_prefix_cons.mpr ⟨rfl, hfirst⟩)

theorem Avoids.down {name : String} (h : Avoids loc l (name :: names)) (hdots : name ≠ "..") :
    Avoids loc (l ++ [name]) names := by
  intro first hfirst
  rw [← follow_down hdots]
  exact h (name :: first) (List.cons_prefix_cons.mpr ⟨rfl, hfirst⟩)

theorem Avoids.of_prefix {first : List String} (h : Avoids loc l names) (hfirst : first <+: names) :
    Avoids loc l first :=
  fun _ hsecond ↦ h _ (hsecond.trans hfirst)

theorem Avoids.append {names' : List String} (h : Avoids loc l names)
    (h' : Avoids loc (follow l names) names') : Avoids loc l (names ++ names') := by
  intro first hfirst
  rcases List.prefix_or_prefix_of_prefix hfirst (List.prefix_append names names') with
    hshort | ⟨second, rfl⟩
  · exact h first hshort
  · rw [follow_append]
    exact h' second ((List.prefix_append_right_inj names).mp hfirst)

theorem avoids_of_getLast? (hstart : l ≠ loc) (hdots : ".." ∉ names)
    (h : ∀ name ∈ names, loc.getLast? ≠ some name) : Avoids loc l names := by
  rintro first hfirst rfl
  rw [follow_of_dots_notMem fun hmem ↦ hdots (hfirst.subset hmem)] at hstart h
  rcases List.eq_nil_or_concat first with rfl | ⟨before, name, rfl⟩
  · exact hstart (List.append_nil l).symm
  · refine h name (hfirst.subset (by simp)) ?_
    rw [List.concat_eq_append, ← List.append_assoc, List.getLast?_concat]

theorem Avoids.join {path : String} (h : Avoids loc (startOf cwd root) (components root))
    (hdown : LeadsDown path) (hnames : ∀ name ∈ components path, loc.getLast? ≠ some name) :
    Avoids loc (startOf cwd (join root path)) (components (join root path)) := by
  rw [startOf_join cwd root hdown, components_join root hdown.relative]
  exact h.append (avoids_of_getLast? (h _ List.prefix_rfl) hdown.dots hnames)

/-- **Directories are made alike without what they avoid.** -/
theorem makeDirectories_without (h : Avoids loc l names) :
    (t.without loc).makeDirectories l names =
      ((t.makeDirectories l names).1.without loc, (t.makeDirectories l names).2) := by
  induction names generalizing t l with
  | nil => rfl
  | cons name names ih =>
    rw [makeDirectories, makeDirectories, lookup?_without_of_ne t h.start]
    split
    · by_cases hdots : name = ".."
      · rw [if_pos hdots, if_pos hdots, ih (hdots ▸ h).up]
      · have hnext := h.down hdots
        rw [if_neg hdots, if_neg hdots, lookup?_without_of_ne t hnext.start]
        split
        · exact ih hnext
        · rfl
        · rw [fitsName_without]
          split
          · rw [← without_set t hnext.start, ih hnext]
          · rfl
    · rfl

theorem fileTarget?_without (h : destination cwd path ≠ loc) :
    (t.without loc).fileTarget? (follow (startOf cwd path) (components path).dropLast) path =
      t.fileTarget? (follow (startOf cwd path) (components path).dropLast) path := by
  by_cases hdirectory : namesDirectory path = true
  · simp only [fileTarget?, hdirectory, Bool.true_or, if_true]
  · obtain ⟨name, hname, -⟩ := getLast?_components_ne (Bool.eq_false_iff.mpr hdirectory)
    rw [destination_eq_append (Bool.eq_false_iff.mpr hdirectory) hname] at h
    rw [fileTarget?, fileTarget?, hname]
    simp only [lookup?_without_of_ne t h]
    rfl

/-- **A file is written alike without what its path avoids.** -/
theorem writeFile_without (h : Avoids loc (startOf cwd path) (components path))
    (contents : String) :
    (t.without loc).writeFile cwd path contents =
      ((t.writeFile cwd path contents).1.without loc, (t.writeFile cwd path contents).2) := by
  have hparents := makeDirectories_without (t := t) (h.of_prefix (List.dropLast_prefix _))
  rw [writeFile, writeFile]
  split
  · rfl
  rw [fitsPath_without]
  split
  · rfl
  rw [hparents]
  rcases hmake : t.makeDirectories (startOf cwd path) (components path).dropLast with ⟨u, _ | dir⟩
  · rfl
  · obtain rfl := makeDirectories_eq_follow hmake
    have hloc : destination cwd path ≠ loc := h _ List.prefix_rfl
    dsimp only
    rw [fileTarget?_without hloc]
    rcases htarget : u.fileTarget? _ path with cause | l
    · rfl
    · obtain ⟨-, hfile, -, name, hname, rfl, -⟩ := exists_of_fileTarget? htarget
      rw [destination_eq_append hfile hname] at hloc
      exact congrArg (·, Except.ok ()) (without_set u hloc _).symm

/-- **A batch is written alike without what its paths avoid.** -/
theorem writeBatch_without {batch : List Artifact}
    (h : ∀ a ∈ batch, Avoids loc (startOf cwd (join root a.path)) (components (join root a.path))) :
    (t.without loc).writeBatch cwd root batch =
      ((t.writeBatch cwd root batch).1.without loc, (t.writeBatch cwd root batch).2) := by
  induction batch generalizing t with
  | nil => rfl
  | cons a batch ih =>
    rw [List.forall_mem_cons] at h
    rw [writeBatch, writeBatch, writeFile_without h.1]
    rcases t.writeFile cwd (join root a.path) a.contents with ⟨u, cause | -⟩
    · rfl
    · dsimp only
      rw [ih h.2]
      rcases u.writeBatch cwd root batch with ⟨v, cause | paths⟩ <;> rfl

end BarBridge.FileTree
