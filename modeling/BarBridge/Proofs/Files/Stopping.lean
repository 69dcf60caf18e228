import BarBridge.Proofs.Files.Writing

/-!
# What a batch that stops leaves

A batch stops at the first artifact that cannot be written. By then the artifacts before it have
been written, and the attempt on the artifact itself may have made some directories on the way to
it. It has done no more than that (`grown_of_writeFile`), and directories where there was nothing
hide no file: whatever could be found is still found (`file?_of_grown`).

So an artifact that has been written is there when the batch ends, however it ends
(`file?_of_writeBatch_append`). Nothing else is claimed of a batch that stops; which artifact it
stops at depends on the tree.
-/

namespace BarBridge.FileTree

open BarBridge.Path

variable {t t' u : FileTree} {cwd root path : String} {loc l : Location} {names : List String}
  {artifacts : List Artifact}

/-! ## An attempt at a file -/

theorem grown_makeDirectories (t : FileTree) (loc : Location) (names : List String) :
    Grown t (t.makeDirectories loc names).1 := by
  induction names generalizing t loc with
  | nil => exact .refl t
  | cons name names ih =>
    rw [makeDirectories]
    split
    · split
      · exact ih t _
      · split
        · exact ih t _
        · exact .refl t
        · next hnone =>
          split
          · exact (grown_set_directory hnone).trans (ih _ _)
          · exact .refl t
    · exact .refl t

theorem grown_of_writeFile {contents : String} {cause : IoCause}
    (h : t.writeFile cwd path contents = (t', .error cause)) : Grown t t' := by
  have hgrown := grown_makeDirectories t (startOf cwd path) (components path).dropLast
  rw [writeFile] at h
  split at h
  · exact (Prod.mk.inj h).1 ▸ .refl t
  split at h
  · exact (Prod.mk.inj h).1 ▸ .refl t
  split at h
  · next u hmake =>
    rw [hmake] at hgrown
    exact (Prod.mk.inj h).1 ▸ hgrown
  · next u dir hmake =>
    rw [hmake] at hgrown
    split at h
    · simp at h
    · exact (Prod.mk.inj h).1 ▸ hgrown

/-! ## Finding a file in a grown tree

A walk that succeeds finds something at every location that it goes through, and a tree has grown
only where there was nothing. -/

theorem Grown.lookup?_of_eq_some {e : Entry} (h : Grown t t') (he : t.lookup? loc = some e) :
    t'.lookup? loc = some e := by
  rcases h.lookup? loc with heq | ⟨hnone, -⟩
  · rw [heq, he]
  · exact absurd (he.symm.trans hnone) (Option.some_ne_none e)

theorem walk_of_grown (hgrown : Grown t t') (h : t.walk loc names = some l) :
    t'.walk loc names = some l := by
  induction names generalizing loc with
  | nil => exact h
  | cons name names ih =>
    rw [walk] at h
    split at h
    · next hloc =>
      rw [walk, hgrown.lookup?_of_eq_some hloc]
      split at h
      · next hdots => exact (if_pos hdots).trans (ih h)
      · next hname =>
        split at h
        · next hsome =>
          obtain ⟨e, he⟩ := Option.isSome_iff_exists.mp hsome
          simp only [if_neg hname, hgrown.lookup?_of_eq_some he, Option.isSome_some, if_true]
          exact ih h
        · contradiction
    · contradiction

/-- **A file that is found is found in a grown tree.** -/
theorem file?_of_grown {contents : Contents} (hgrown : Grown t t')
    (h : t.file? cwd path = some contents) : t'.file? cwd path = some contents := by
  rw [file?] at h ⊢
  rw [fitsPath, hgrown.limits, ← fitsPath]
  split at h
  · contradiction
  next htext =>
  split at h
  · contradiction
  next loc hwalk =>
  split at h
  · next c hfile =>
    simp only [if_neg htext, walk_of_grown hgrown hwalk, hgrown.lookup?_of_eq_some hfile]
    exact h
  · contradiction

/-! ## A batch that stops

However a batch ends, a beginning of it has been written, and from there the tree has only grown
(`exists_grown_writeBatch`). Nothing else is used of how it ended. -/

theorem paths_of_writeBatch {paths : List String}
    (h : t.writeBatch cwd root artifacts = (t', .ok paths)) :
    paths = artifacts.map fun a ↦ join root a.path := by
  induction artifacts generalizing t paths with
  | nil =>
    obtain ⟨-, hpaths⟩ := Prod.mk.inj h
    exact (Except.ok.inj hpaths).symm
  | cons a artifacts ih =>
    rw [writeBatch] at h
    split at h
    · simp at h
    split at h
    · next hrest =>
      obtain ⟨rfl, hpaths⟩ := Prod.mk.inj h
      rw [← Except.ok.inj hpaths, ih hrest, List.map_cons]
    · simp at h

/-- **A batch that stops** does so at an artifact that cannot be written, when those before it have
been. -/
theorem exists_of_writeBatch_error {cause : IoCause}
    (h : t.writeBatch cwd root artifacts = (t', .error cause)) :
    ∃ written a rest u paths, artifacts = written ++ a :: rest ∧
      t.writeBatch cwd root written = (u, .ok paths) ∧
      u.writeFile cwd (join root a.path) a.contents = (t', .error cause) := by
  induction artifacts generalizing t with
  | nil => simp [writeBatch] at h
  | cons a artifacts ih =>
    rw [writeBatch] at h
    split at h
    · next v cause' hwrite =>
      obtain ⟨rfl, hcause⟩ := Prod.mk.inj h
      obtain rfl := Except.error.inj hcause
      exact ⟨[], a, artifacts, t, [], rfl, rfl, hwrite⟩
    · next v hwrite =>
      split at h
      · simp at h
      · next v' cause' hrest =>
        obtain ⟨rfl, hcause⟩ := Prod.mk.inj h
        obtain rfl := Except.error.inj hcause
        obtain ⟨written, b, rest, u, paths, rfl, hwritten, hfails⟩ := ih hrest
        exact ⟨a :: written, b, rest, u, _, rfl, writeBatch_cons hwrite hwritten, hfails⟩

theorem exists_grown_writeBatch (t : FileTree) (cwd root : String) (artifacts : List Artifact) :
    ∃ written rest u paths, artifacts = written ++ rest ∧
      t.writeBatch cwd root written = (u, .ok paths) ∧
      Grown u (t.writeBatch cwd root artifacts).1 := by
  rcases hbatch : t.writeBatch cwd root artifacts with ⟨t', cause | paths⟩
  · obtain ⟨written, a, rest, u, paths, rfl, hwritten, hfails⟩ := exists_of_writeBatch_error hbatch
    exact ⟨written, a :: rest, u, paths, rfl, hwritten, grown_of_writeFile hfails⟩
  · exact ⟨artifacts, [], t', paths, (List.append_nil _).symm, hbatch, .refl t'⟩

/-- **What has been written is there in the end**, whatever becomes of the rest. One artifact that
has been written has to lie deeper than the output directory, since only then is it known to be a
directory. -/
theorem file?_of_writeBatch_append {first second : List Artifact} {paths : List String}
    (hdown : ∀ a ∈ first ++ second, LeadsDown a.path)
    (hapart : (first ++ second).Pairwise Apart)
    (hdeep : ∃ a ∈ first, (components a.path).dropLast ≠ [])
    (hfirst : t.writeBatch cwd root first = (u, .ok paths)) :
    ∀ a ∈ first, (u.writeBatch cwd root second).1.file? cwd (join root a.path) =
      some (.text a.contents) := by
  obtain ⟨written, rest, v, paths', rfl, hwritten, hgrown⟩ :=
    exists_grown_writeBatch u cwd root second
  rw [← List.append_assoc] at hdown hapart
  have hdown' : ∀ a ∈ first ++ written, LeadsDown a.path :=
    fun a ha ↦ hdown a (List.mem_append_left _ ha)
  have hboth : t.writeBatch cwd root (first ++ written) = (v, .ok (paths ++ paths')) := by
    rw [writeBatch_append, hfirst]
    simp only [hwritten]
  obtain ⟨deep, hmem, hdeep⟩ := hdeep
  have hmem' : deep ∈ first ++ written := List.mem_append_left _ hmem
  obtain ⟨w, base, hmake, hall, hgains⟩ := exists_gains_of_writeBatch (List.ne_nil_of_mem hmem')
    hdown' (List.pairwise_append.mp hapart).1 hboth
  have hkeeps := hgains.keepsDirectories fun a ha ↦ (hall a ha).2
  have hbase := (hall deep hmem').2.passable.start hdeep
  intro a ha
  have ha' : a ∈ first ++ written := List.mem_append_left _ ha
  exact file?_of_grown hgrown
    (file?_of_gains hmake hgains hkeeps hbase ha' (hdown' a ha') (hall a ha').1).2

end BarBridge.FileTree
