import BarBridge.Proofs.Files.Stopping

/-!
# Writing into a fresh directory

In a directory that is there and has nothing in it, on a file system that takes names of any length,
a batch meets with nothing but its own artifacts. These keep out of each other's way, so there is
only one thing left that can end the batch: a path with a NUL character, which no file system takes
(`writeBatch_of_fresh`).

That a directory is fresh is true before the first artifact only. What every artifact leaves to the
ones behind it is that they can still be written (`Gains.writable_iff`), and this is what the
induction runs on.
-/

namespace BarBridge.FileTree

open BarBridge.Path

/-- A directory with nothing in it, on a file system without limits. -/
structure Fresh (t : FileTree) (cwd root : String) (base : Location) : Prop where
  limits : t.limits = .unbounded
  made : Made t cwd root base
  directory : t.lookup? base = some .directory
  empty : ∀ names, names ≠ [] → t.lookup? (base ++ names) = none
  /-- A directory that is there has no NUL character in its path. -/
  nul : hasNul root = false

variable {t t' : FileTree} {cwd root path : String} {base : Location} {names : List String}
  {artifacts : List Artifact}

theorem fitsPath_of_unbounded (h : t.limits = .unbounded) (path : String) :
    t.fitsPath path = true := by
  rw [fitsPath, h]
  rfl

theorem fitsName_of_unbounded (h : t.limits = .unbounded) (name : String) :
    t.fitsName name = true := by
  rw [fitsName, h]
  rfl

/-- **Everything can be written in a fresh directory.** -/
theorem Fresh.writable (h : Fresh t cwd root base) (hne : names ≠ []) : t.Writable base names where
  passable := by
    refine ⟨fun _ ↦ h.directory, fun loc hloc ↦ .inr ⟨?_, fun name _ ↦ ?_⟩⟩
    · obtain ⟨rest, rfl⟩ := hloc.below
      exact h.empty rest (between_append_iff.mp hloc).1
    · exact fitsName_of_unbounded h.limits name
  target := by
    refine ⟨?_, fun _ name _ ↦ fitsName_of_unbounded h.limits name⟩
    rw [h.empty names hne]
    exact (Option.some_ne_none _).symm

theorem admits_join (hlimits : t.limits = .unbounded) (hroot : hasNul root = false)
    (hdown : LeadsDown path) (hfile : namesDirectory path = false) (hnul : hasNul path = false) :
    t.Admits (join root path) := by
  have hjoin : hasNul (join root path) = false := by
    rw [hasNul_join root hdown.relative, hroot, hnul, Bool.or_false]
  refine ⟨?_, fitsPath_of_unbounded hlimits _, hjoin, ?_, fitsPath_of_unbounded hlimits _⟩
  · rw [List.any_eq_false]
    intro s hs hs'
    have hpath := hasNul_of_mem_components (List.dropLast_subset _ hs) hs'
    exact Bool.false_ne_true (hjoin.symm.trans hpath)
  · rw [namesDirectory_join root hdown.relative, hfile]

theorem writeFile_of_hasNul (hlimits : t.limits = .unbounded) (hmade : Made t cwd root base)
    (hdown : LeadsDown path) (hpassable : t.Passable base (components path).dropLast)
    (hnul : hasNul path = true) (contents : String) :
    ∃ t', t.writeFile cwd (join root path) contents = (t', .error .nulInPath) := by
  have hjoin : hasNul (join root path) = true := by
    rw [hasNul_join root hdown.relative, hnul, Bool.or_true]
  obtain ⟨u, hmake⟩ := exists_makeDirectories hpassable hdown.dots_dropLast
  rw [writeFile]
  split
  · exact ⟨t, rfl⟩
  · refine ⟨u, ?_⟩
    simp only [fitsPath_of_unbounded hlimits, Bool.not_true, Bool.false_eq_true, if_false,
      makeDirectories_join hmade hdown, hmake, fileTarget?, hjoin, if_true]

/-- **What can end a batch that has room** is a NUL character in a path. The induction is on the
batch; each artifact leaves room for the ones behind it. -/
theorem writeBatch_of_writable (hlimits : t.limits = .unbounded) (hroot : hasNul root = false)
    (hmade : Made t cwd root base)
    (hpaths : ∀ a ∈ artifacts, LeadsDown a.path ∧ namesDirectory a.path = false)
    (hapart : artifacts.Pairwise Apart)
    (hwritable : ∀ a ∈ artifacts, t.Writable base (components a.path)) :
    (t.writeBatch cwd root artifacts).2 =
      if artifacts.any (fun a ↦ hasNul a.path) then .error .nulInPath
      else .ok (artifacts.map fun a ↦ join root a.path) := by
  induction artifacts generalizing t with
  | nil => rfl
  | cons a artifacts ih =>
    rw [List.forall_mem_cons] at hpaths hwritable
    rw [List.pairwise_cons] at hapart
    obtain ⟨⟨hdown, hfile⟩, hpaths⟩ := hpaths
    rw [writeBatch, List.any_cons]
    cases hnul : hasNul a.path with
    | true =>
      obtain ⟨u, hwrite⟩ :=
        writeFile_of_hasNul hlimits hmade hdown hwritable.1.passable hnul a.contents
      simp only [hwrite, Bool.true_or, if_true]
    | false =>
      obtain ⟨u, hwrite⟩ := exists_writeFile_join hmade hdown
        (admits_join hlimits hroot hdown hfile hnul) hwritable.1 a.contents
      obtain ⟨-, -, hgains⟩ := writeFile_join hmade hdown hwrite
      have hkeeps := hgains.keepsDirectories (by simpa using hwritable.1)
      have hrest := ih (hgains.limits.trans hlimits) (hmade.of_keepsDirectories hkeeps) hpaths
        hapart.2 fun b hb ↦
          (hgains.writable_iff hwritable.1 hdown.ne_nil (hapart.1 b hb)).mpr (hwritable.2 b hb)
      simp only [hwrite, Bool.false_or]
      rcases hbatch : u.writeBatch cwd root artifacts with ⟨t', answer⟩
      rw [hbatch] at hrest
      obtain rfl : answer = _ := hrest
      cases artifacts.any fun b ↦ hasNul b.path <;> rfl

/-- **A batch in a fresh directory.** -/
theorem writeBatch_of_fresh (h : Fresh t cwd root base)
    (hpaths : ∀ a ∈ artifacts, LeadsDown a.path ∧ namesDirectory a.path = false)
    (hapart : artifacts.Pairwise Apart) :
    (t.writeBatch cwd root artifacts).2 =
      if artifacts.any (fun a ↦ hasNul a.path) then .error .nulInPath
      else .ok (artifacts.map fun a ↦ join root a.path) :=
  writeBatch_of_writable h.limits h.nul h.made hpaths hapart
    fun a ha ↦ h.writable (hpaths a ha).1.ne_nil

end BarBridge.FileTree
