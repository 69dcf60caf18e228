import BarBridge.Proofs.Files.Stopping

/-!
# Where a path leads

There are no links in a tree. So where a path leads, if it leads anywhere, can be told from the path
alone: a name goes down, two dots go up (`destination`). What the tree decides is whether there is a
way. Reading a file walks it, writing a file makes what is missing of it, and either ends at the
destination or fails (`walk_eq_some`, `makeDirectories_eq_follow`).

That makes statements about paths into statements about locations. Two texts may well denote one
file, `a` and `b/../a` for instance, and at their common destination they cannot be told apart.
-/

namespace BarBridge.FileTree

open BarBridge.Path

variable {t t' u : FileTree} {cwd root path : String} {loc l : Location} {names : List String}

/-! ## Following names -/

/-- Where names lead from a location. -/
def follow (loc : Location) (names : List String) : Location :=
  names.foldl (fun loc name ↦ if name = ".." then loc.dropLast else loc ++ [name]) loc

/-- Where a path leads. -/
def destination (cwd path : String) : Location :=
  follow (startOf cwd path) (components path)

theorem follow_nil (loc : Location) : follow loc [] = loc := rfl

theorem follow_up (loc : Location) (names : List String) :
    follow loc (".." :: names) = follow loc.dropLast names := rfl

theorem follow_down {name : String} (h : name ≠ "..") (loc : Location) (names : List String) :
    follow loc (name :: names) = follow (loc ++ [name]) names := by
  rw [follow, List.foldl_cons, if_neg h, follow]

theorem follow_append (loc : Location) (names names' : List String) :
    follow loc (names ++ names') = follow (follow loc names) names' :=
  List.foldl_append

theorem follow_of_dots_notMem (hdots : ".." ∉ names) (loc : Location) :
    follow loc names = loc ++ names := by
  induction names generalizing loc with
  | nil => rw [follow_nil, List.append_nil]
  | cons name names ih =>
    rw [List.mem_cons, not_or] at hdots
    rw [follow_down (Ne.symm hdots.1), ih hdots.2, List.append_assoc, List.singleton_append]

/-- **A walk ends where its names lead.** -/
theorem walk_eq_some (h : t.walk loc names = some l) : l = follow loc names := by
  induction names generalizing loc with
  | nil =>
    rw [walk] at h
    exact (Option.some.inj h).symm
  | cons name names ih =>
    rw [walk] at h
    split at h
    · split at h
      · next hdots =>
        rw [ih h, hdots, follow_up]
      · next hname =>
        split at h
        · rw [ih h, follow_down hname]
        · contradiction
    · contradiction

/-- **Directories are made where their names lead.** -/
theorem makeDirectories_eq_follow (h : t.makeDirectories loc names = (t', some l)) :
    l = follow loc names := by
  induction names generalizing t loc with
  | nil =>
    obtain ⟨-, hl⟩ := Prod.mk.inj h
    exact (Option.some.inj hl).symm
  | cons name names ih =>
    obtain ⟨-, u, next, henters, hrest⟩ := exists_enters h
    rw [ih hrest]
    cases henters with
    | up => rw [follow_up]
    | down hname _ => rw [follow_down hname]
    | new hname _ _ => rw [follow_down hname]

/-! ## The last name of a path

A path that may denote a file ends in a name that goes down. So it does not lead to the root, and
where it leads is called by this name, wherever the names before it have led. -/

theorem getLast?_components_ne (hfile : namesDirectory path = false) :
    ∃ name, (components path).getLast? = some name ∧ name ≠ ".." := by
  obtain ⟨ss, s, hsegments⟩ := List.eq_nil_or_concat (segments path.toList) |>.resolve_left
    (segments_ne_nil _)
  rw [List.concat_eq_append] at hsegments
  rw [namesDirectory, hsegments, List.getLast?_concat] at hfile
  have hcomponent : s ≠ [] ∧ s ≠ ['.'] := by
    constructor
    · rintro rfl
      contradiction
    · rintro rfl
      contradiction
  have hkept : ([s].filter fun s ↦ s ≠ [] ∧ s ≠ ['.']) = [s] :=
    List.filter_eq_self.mpr fun x hx ↦ by rw [List.mem_singleton.mp hx, decide_eq_true hcomponent]
  refine ⟨String.ofList s, ?_, fun hdots ↦ ?_⟩
  · rw [components, hsegments, List.filter_append, hkept, List.map_append, List.map_singleton,
      List.getLast?_concat]
  · have hs : s = "..".toList := by rw [← hdots, String.toList_ofList]
    rw [hs] at hfile
    contradiction

/-- The destination of a path that may denote a file is in the directory its other names lead to. -/
theorem destination_eq_append {name : String} (hfile : namesDirectory path = false)
    (hname : (components path).getLast? = some name) :
    destination cwd path = follow (startOf cwd path) (components path).dropLast ++ [name] := by
  obtain ⟨name', hname', hdots⟩ := getLast?_components_ne hfile
  obtain rfl : name' = name := Option.some.inj (hname'.symm.trans hname)
  rw [destination]
  nth_rewrite 1 [← List.dropLast_append_getLast? _ hname]
  rw [follow_append, follow_down hdots, follow_nil]

theorem destination_ne_nil (hfile : namesDirectory path = false) : destination cwd path ≠ [] := by
  obtain ⟨name, hname, -⟩ := getLast?_components_ne hfile
  rw [destination_eq_append hfile hname]
  exact List.append_ne_nil_of_right_ne_nil _ (List.cons_ne_nil name [])

theorem getLast?_destination {name : String} (hfile : namesDirectory path = false)
    (hname : (components path).getLast? = some name) :
    (destination cwd path).getLast? = some name := by
  rw [destination_eq_append hfile hname, List.getLast?_concat]

theorem getLast?_destination_join {base name : String} (hrelative : isAbsolute path = false)
    (hfile : namesDirectory path = false) (hname : (components path).getLast? = some name) :
    (destination cwd (join base path)).getLast? = some name := by
  refine getLast?_destination ?_ ?_
  · rw [namesDirectory_join base hrelative, hfile]
  · rw [components_join base hrelative, List.getLast?_append, hname, Option.some_or]

/-! ## Files by location

What is said of a tree that has been written to is mostly said of its files. Directories come in on
the way to them, and asking for the file at a location leaves these out of account. -/

/-- The contents of the file at a location, if there is one. -/
def fileAt? (t : FileTree) (loc : Location) : Option Contents :=
  match t.lookup? loc with
  | some (.file contents) => some contents
  | _ => none

theorem fileAt?_congr (h : t'.lookup? loc = t.lookup? loc) : t'.fileAt? loc = t.fileAt? loc := by
  rw [fileAt?, h, fileAt?]

theorem fileAt?_eq_some_iff {contents : Contents} :
    t.fileAt? loc = some contents ↔ t.lookup? loc = some (.file contents) := by
  rw [fileAt?]
  split
  · next hfile => rw [hfile, Option.some.injEq, Option.some.injEq, Entry.file.injEq]
  · next hother => exact iff_of_false (Option.some_ne_none contents).symm (hother contents)

theorem Grown.fileAt? (h : Grown t t') (loc : Location) : t'.fileAt? loc = t.fileAt? loc := by
  rcases h.lookup? loc with hsame | ⟨hnone, hdirectory⟩
  · exact fileAt?_congr hsame
  · rw [FileTree.fileAt?, FileTree.fileAt?, hnone, hdirectory]

theorem fileAt?_set (t : FileTree) {loc : Location} (hloc : loc ≠ []) (contents : Contents)
    (l : Location) :
    (t.set loc (.file contents)).fileAt? l = if loc = l then some contents else t.fileAt? l := by
  split
  · next heq => rw [← heq, fileAt?_eq_some_iff, lookup?_set_self t hloc]
  · next hne => exact fileAt?_congr (lookup?_set_of_ne t (Ne.symm hne) _)

theorem fileAt?_of_file? {contents : Contents} (h : t.file? cwd path = some contents) :
    t.fileAt? (destination cwd path) = some contents := by
  rw [file?] at h
  split at h
  · contradiction
  split at h
  · contradiction
  next loc hwalk =>
  split at h
  · next c hfile =>
    rw [destination, ← walk_eq_some hwalk, fileAt?_eq_some_iff, hfile, Option.some.inj h]
  · contradiction

end BarBridge.FileTree
