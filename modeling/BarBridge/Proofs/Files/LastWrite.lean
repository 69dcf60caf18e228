import BarBridge.Proofs.Files.Destinations

/-!
# What a batch leaves at every location

A batch may name the same file twice, by one path or by two that lead there, and its paths may go up
as well as down. All that can be said then is said of locations: a location that is the destination
of some artifact has the contents given for it last, and the file at any other location is what it
was (`writeBatch_leaves`).

## Writing again

A batch that has been written once can be written again, though the tree is another one by now. What
makes the second time succeed is what the first has left behind for every artifact: the directories
on the way have been made, and there is a file at the destination (`Settled`). Later artifacts of
the batch leave that as it is, since they take no directory away and turn no file into anything else
(`Keeps`). A path that is settled is written without making anything, so the second time changes
contents only, and in the end not even these.
-/

namespace BarBridge.FileTree

open BarBridge.Path

variable {t t' u : FileTree} {cwd root path contents : String} {loc : Location}
  {artifacts : List Artifact}

/-! ## One file -/

/-- What writing leaves of a tree: limits, directories, and files as files. -/
structure Keeps (t t' : FileTree) : Prop where
  limits : t'.limits = t.limits
  directories : KeepsDirectories t t'
  files : ∀ loc, (t.fileAt? loc).isSome = true → (t'.fileAt? loc).isSome = true

theorem Keeps.refl (t : FileTree) : Keeps t t :=
  ⟨rfl, fun _ h ↦ h, fun _ h ↦ h⟩

theorem Keeps.trans (h : Keeps t u) (h' : Keeps u t') : Keeps t t' where
  limits := h'.limits.trans h.limits
  directories := h.directories.trans h'.directories
  files loc hloc := h'.files loc (h.files loc hloc)

/-- A path that has been written: its directories are made and its file is there. -/
structure Settled (t : FileTree) (cwd path : String) : Prop where
  admits : t.Admits path
  made : t.makeDirectories (startOf cwd path) (components path).dropLast =
    (t, some (follow (startOf cwd path) (components path).dropLast))
  file : (t.fileAt? (destination cwd path)).isSome = true

theorem Settled.of_keeps (h : t.Settled cwd path) (hkeeps : Keeps t t') : t'.Settled cwd path where
  admits := h.admits.congr hkeeps.limits
  made := makeDirectories_again h.made hkeeps.directories
  file := hkeeps.files _ h.file

theorem mayBeFile_of_fileAt? (h : (t.fileAt? loc).isSome = true) : t.MayBeFile loc := by
  obtain ⟨c, hc⟩ := Option.isSome_iff_exists.mp h
  rw [fileAt?_eq_some_iff] at hc
  refine ⟨?_, fun hnone ↦ ?_⟩
  · rw [hc]
    simp
  · rw [hc] at hnone
    contradiction

/-- **What writing a file does**: the file is there, every other is as it was, and the path is
settled. -/
theorem writeFile_leaves (h : t.writeFile cwd path contents = (t', .ok ())) :
    Keeps t t' ∧ t'.Settled cwd path ∧
      ∀ loc, t'.fileAt? loc =
        if destination cwd path = loc then some (.text contents) else t.fileAt? loc := by
  obtain ⟨hadmits, u, dir, name, hmake, hname, hmay, rfl⟩ := writeFile_eq_ok_iff.mp h
  have hgrown := grown_of_makeDirectories hmake
  have htarget : dir ++ [name] = destination cwd path := by
    rw [destination_eq_append hadmits.file hname, makeDirectories_eq_follow hmake]
  rw [htarget] at hmay ⊢
  have hroot : destination cwd path ≠ [] := destination_ne_nil hadmits.file
  have hfiles := fileAt?_set u hroot (.text contents)
  have hdirectories :
      KeepsDirectories u (u.set (destination cwd path) (.file (.text contents))) := by
    intro loc hloc
    have hne : loc ≠ destination cwd path := by
      rintro rfl
      exact hmay.ne_directory hloc
    rw [lookup?_set_of_ne u hne, hloc]
  have hkeeps : Keeps t (u.set (destination cwd path) (.file (.text contents))) := by
    refine ⟨hgrown.limits, hgrown.keepsDirectories.trans hdirectories, fun loc hloc ↦ ?_⟩
    rw [hfiles, hgrown.fileAt?]
    split
    · rfl
    · exact hloc
  refine ⟨hkeeps, ⟨hadmits.congr hkeeps.limits, ?_, ?_⟩, fun loc ↦ ?_⟩
  · rw [← makeDirectories_eq_follow hmake]
    exact makeDirectories_again hmake hdirectories
  · rw [hfiles, if_pos rfl]
    rfl
  · rw [hfiles, hgrown.fileAt?]

theorem Settled.writeFile_eq (h : t.Settled cwd path) (contents : String) :
    t.writeFile cwd path contents =
      (t.set (destination cwd path) (.file (.text contents)), .ok ()) := by
  obtain ⟨name, hname, -⟩ := getLast?_components_ne h.admits.file
  have htarget : destination cwd path = _ := destination_eq_append h.admits.file hname
  refine writeFile_eq_ok_iff.mpr ⟨h.admits, t, _, name, h.made, hname, ?_, ?_⟩
  · rw [← htarget]
    exact mayBeFile_of_fileAt? h.file
  · rw [← htarget]

/-! ## A batch

The contents given last are looked for from the end of a batch, and the batch is written from the
front. So the first artifact counts only where no later one has its destination (`lastGiven_cons`),
and there it has been written over. -/

/-- The contents that a batch gives last for a location. -/
def lastGiven (cwd root : String) (artifacts : List Artifact) (loc : Location) : Option String :=
  (artifacts.reverse.find? fun a ↦ destination cwd (join root a.path) = loc).map (·.contents)

theorem lastGiven_cons (cwd root : String) (a : Artifact) (artifacts : List Artifact)
    (loc : Location) :
    lastGiven cwd root (a :: artifacts) loc = (lastGiven cwd root artifacts loc).or
      (if destination cwd (join root a.path) = loc then some a.contents else none) := by
  have hone : ([a].find? fun a ↦ destination cwd (join root a.path) = loc).map (·.contents) =
      if destination cwd (join root a.path) = loc then some a.contents else none := by
    by_cases h : destination cwd (join root a.path) = loc <;> simp [h]
  rw [lastGiven, List.reverse_cons, List.find?_append, Option.map_or, hone, lastGiven]

/-- **What a batch does that is written.** The induction is on the batch. -/
theorem writeBatch_leaves {paths : List String}
    (h : t.writeBatch cwd root artifacts = (t', .ok paths)) :
    Keeps t t' ∧ (∀ a ∈ artifacts, t'.Settled cwd (join root a.path)) ∧
      ∀ loc, t'.fileAt? loc =
        ((lastGiven cwd root artifacts loc).map .text).or (t.fileAt? loc) := by
  induction artifacts generalizing t paths with
  | nil =>
    obtain ⟨rfl, -⟩ := Prod.mk.inj h
    exact ⟨.refl t, by simp, fun loc ↦ rfl⟩
  | cons a artifacts ih =>
    obtain ⟨u, rest, hwrite, hrest⟩ := exists_of_writeBatch_cons h
    obtain ⟨hkeeps, hsettled, hfiles⟩ := writeFile_leaves hwrite
    obtain ⟨hkeeps', hsettled', hfiles'⟩ := ih hrest
    refine ⟨hkeeps.trans hkeeps', List.forall_mem_cons.mpr ⟨hsettled.of_keeps hkeeps', hsettled'⟩,
      fun loc ↦ ?_⟩
    rw [hfiles', hfiles, lastGiven_cons, Option.map_or, Option.or_assoc]
    by_cases hloc : destination cwd (join root a.path) = loc
    · rw [if_pos hloc, if_pos hloc, Option.map_some, Option.some_or]
    · rw [if_neg hloc, if_neg hloc, Option.map_none, Option.none_or]

/-- **A settled batch is written**, and changes contents only. -/
theorem exists_writeBatch_of_settled
    (h : ∀ a ∈ artifacts, t.Settled cwd (join root a.path)) :
    ∃ t' paths, t.writeBatch cwd root artifacts = (t', .ok paths) ∧
      ∀ loc, t.fileAt? loc = none → t'.lookup? loc = t.lookup? loc := by
  induction artifacts generalizing t with
  | nil => exact ⟨t, [], rfl, fun _ _ ↦ rfl⟩
  | cons a artifacts ih =>
    rw [List.forall_mem_cons] at h
    have hwrite := h.1.writeFile_eq a.contents
    obtain ⟨hkeeps, -, hfiles⟩ := writeFile_leaves hwrite
    obtain ⟨t', paths, hrest, hsame⟩ := ih fun b hb ↦ (h.2 b hb).of_keeps hkeeps
    refine ⟨t', _, writeBatch_cons hwrite hrest, fun loc hloc ↦ ?_⟩
    have hne : loc ≠ destination cwd (join root a.path) := by
      rintro rfl
      have hfile := h.1.file
      rw [hloc] at hfile
      contradiction
    rw [hsame loc (by rw [hfiles, if_neg hne.symm, hloc]), lookup?_set_of_ne t hne]

theorem exists_writeBatch_again {paths : List String}
    (h : t.writeBatch cwd root artifacts = (t', .ok paths)) :
    ∃ t'', t'.writeBatch cwd root artifacts = (t'', .ok paths) ∧
      ∀ loc, t''.lookup? loc = t'.lookup? loc := by
  obtain ⟨-, hsettled, hfiles⟩ := writeBatch_leaves h
  obtain ⟨t'', paths', hagain, hsame⟩ := exists_writeBatch_of_settled hsettled
  obtain ⟨-, -, hfiles'⟩ := writeBatch_leaves hagain
  have hpaths : paths' = paths := (paths_of_writeBatch hagain).trans (paths_of_writeBatch h).symm
  refine ⟨t'', hpaths ▸ hagain, fun loc ↦ ?_⟩
  have hcontents : t''.fileAt? loc = t'.fileAt? loc := by
    rw [hfiles', hfiles, ← Option.or_assoc, Option.or_self]
  rcases hfile : t'.fileAt? loc with _ | c
  · exact hsame loc hfile
  · rw [fileAt?_eq_some_iff.mp (hcontents.trans hfile), fileAt?_eq_some_iff.mp hfile]

/-- **A batch is written, the last contents winning, or stops with all before it written.** If a
batch succeeds, it answers its paths below the output directory in order; every location that one of
them leads to has the contents given for it last, and all other files are as they were; and the same
batch succeeds again and leaves every location as it is. If it fails, it fails at one of its
artifacts, and the files are exactly those that the artifacts before it have left. -/
theorem batch_written_or_stopped (t : FileTree) (cwd root : String) (artifacts : List Artifact) :
    (∀ t' paths, t.writeBatch cwd root artifacts = (t', .ok paths) →
      paths = artifacts.map (fun a ↦ join root a.path) ∧
        (∀ loc, t'.fileAt? loc =
          ((lastGiven cwd root artifacts loc).map .text).or (t.fileAt? loc)) ∧
        ∃ t'', t'.writeBatch cwd root artifacts = (t'', .ok paths) ∧
          ∀ loc, t''.lookup? loc = t'.lookup? loc) ∧
      ∀ t' cause, t.writeBatch cwd root artifacts = (t', .error cause) →
        ∃ written a rest u, artifacts = written ++ a :: rest ∧
          t.writeBatch cwd root written = (u, .ok (written.map fun a ↦ join root a.path)) ∧
          u.writeFile cwd (join root a.path) a.contents = (t', .error cause) ∧
          ∀ loc, t'.fileAt? loc = u.fileAt? loc := by
  constructor
  · intro t' paths h
    obtain ⟨-, -, hfiles⟩ := writeBatch_leaves h
    exact ⟨paths_of_writeBatch h, hfiles, exists_writeBatch_again h⟩
  · intro t' cause h
    obtain ⟨written, a, rest, u, paths, rfl, hwritten, hfails⟩ := exists_of_writeBatch_error h
    obtain rfl := paths_of_writeBatch hwritten
    exact ⟨written, a, rest, u, rfl, hwritten, hfails, (grown_of_writeFile hfails).fileAt?⟩

/-- Two paths to one file, the second of which makes a directory on its way; and a third path that
takes the file for a directory. -/
theorem batch_written_or_stopped_detour :
    let t := FileTree.empty .unbounded
    let batch : List Artifact := [⟨"a", "first"⟩, ⟨"b/../a", "second"⟩]
    (∃ t' paths, t.writeBatch "/" "o" batch = (t', .ok paths) ∧
      t'.fileAt? ["o", "a"] = some (.text "second") ∧
      ∃ t'', t'.writeBatch "/" "o" batch = (t'', .ok paths) ∧
        ∀ loc, t''.lookup? loc = t'.lookup? loc) ∧
      ∃ t' cause, t.writeBatch "/" "o" (batch ++ [⟨"a/c", "third"⟩]) = (t', .error cause) ∧
        ∃ written a rest u, batch ++ [⟨"a/c", "third"⟩] = written ++ a :: rest ∧
          t.writeBatch "/" "o" written = (u, .ok (written.map fun a ↦ join "o" a.path)) ∧
          ∀ loc, t'.fileAt? loc = u.fileAt? loc := by
  intro t batch
  constructor
  · obtain ⟨t', paths, hbatch⟩ : ∃ t' paths, t.writeBatch "/" "o" batch = (t', .ok paths) :=
      ⟨_, _, rfl⟩
    obtain ⟨-, hfiles, hagain⟩ := (batch_written_or_stopped t "/" "o" batch).1 t' paths hbatch
    refine ⟨t', paths, hbatch, ?_, hagain⟩
    rw [hfiles]
    rfl
  · obtain ⟨t', cause, hstops⟩ : ∃ t' cause, t.writeBatch "/" "o" (batch ++ [⟨"a/c", "third"⟩]) =
        (t', .error cause) := ⟨_, _, rfl⟩
    obtain ⟨written, a, rest, u, hsplit, hwritten, -, hfiles⟩ :=
      (batch_written_or_stopped t "/" "o" _).2 t' cause hstops
    exact ⟨t', cause, hstops, written, a, rest, u, hsplit, hwritten, hfiles⟩

end BarBridge.FileTree
