import Mathlib.Data.Set.Basic
import BarBridge.Files.Batch
import BarBridge.Proofs.Files.Components
import BarBridge.Proofs.Files.Directories

/-!
# What a batch of artifacts leaves

Artifacts are written below an output directory one after the other, and a tree is not the same
before the second as before the first. Still each might have been written alone: whether one can be
written depends on a few locations only, and what another artifact changes there, it changes into
the directories that both need (`Gains.writable_iff`). This holds of artifacts none of which lies
where another one does or has a directory.

So a batch is described as a whole, in terms of the tree before it. It is written if and only if
each artifact of it can be (`writeBatch_eq_ok`, `exists_writeBatch`), and then there are the files,
the directories on the way to them, and everything else as it was (`Gains`).

## The output directory

The output directory may be stated with two dots, and may have to be made. The first artifact makes
it, and for all others it is there (`Made`). Statements about a batch are therefore about a tree in
which it has been made, and `exists_makeDirectories_of_writeBatch` leads there.
-/

namespace BarBridge.FileTree

open BarBridge.Path

/-! ## One file

Whether a file can be written is taken apart by what the answer depends on: the text of its path and
the limits (`Admits`), the directories on the way, and the location itself (`MayBeFile`). The first
of these does not change while a batch is written. -/

/-- What a text has to be like to be the path of a file that is written. -/
structure Admits (t : FileTree) (path : String) : Prop where
  parents : (components path).dropLast.any hasNul = false
  parent : t.fitsPath (parent path) = true
  nul : hasNul path = false
  file : namesDirectory path = false
  length : t.fitsPath path = true

/-- Whether a location can become a file, or is one. -/
structure MayBeFile (t : FileTree) (loc : Location) : Prop where
  ne_directory : t.lookup? loc ≠ some .directory
  fits : t.lookup? loc = none → ∀ name ∈ loc.getLast?, t.fitsName name = true

theorem Admits.congr {t t' : FileTree} {path : String} (h : t.Admits path)
    (hlimits : t'.limits = t.limits) : t'.Admits path := by
  have hfits : ∀ p, t'.fitsPath p = t.fitsPath p := fun p ↦ by rw [fitsPath, fitsPath, hlimits]
  exact ⟨h.parents, (hfits _).trans h.parent, h.nul, h.file, (hfits _).trans h.length⟩

theorem MayBeFile.congr {t t' : FileTree} {loc : Location} (h : t.MayBeFile loc)
    (hlimits : t'.limits = t.limits) (hloc : t'.lookup? loc = t.lookup? loc) :
    t'.MayBeFile loc := by
  refine ⟨hloc ▸ h.ne_directory, fun hnone name hname ↦ ?_⟩
  rw [fitsName, hlimits]
  exact h.fits (hloc ▸ hnone) name hname

theorem exists_of_fileTarget? {t : FileTree} {dir loc : Location} {path : String}
    (h : t.fileTarget? dir path = .ok loc) :
    hasNul path = false ∧ namesDirectory path = false ∧ t.fitsPath path = true ∧
      ∃ name, (components path).getLast? = some name ∧ loc = dir ++ [name] ∧
        t.MayBeFile (dir ++ [name]) := by
  rw [fileTarget?] at h
  split at h
  · exact nomatch h
  next hnul =>
  split at h
  · exact nomatch h
  next htext =>
  split at h
  · exact nomatch h
  next name hname =>
  have htext : namesDirectory path = false ∧ t.fitsPath path = true := by simpa using htext
  refine ⟨by simpa using hnul, htext.1, htext.2, name, hname, ?_⟩
  split at h
  · exact nomatch h
  · next hfile =>
    refine ⟨(Except.ok.inj h).symm, ⟨?_, fun hnone ↦ ?_⟩⟩
    · rw [hfile]
      exact fun h ↦ nomatch h
    · exact nomatch hfile.symm.trans hnone
  · next hnone =>
    split at h
    · next hfits =>
      refine ⟨(Except.ok.inj h).symm, ⟨?_, fun _ name' hname' ↦ ?_⟩⟩
      · rw [hnone]
        exact fun h ↦ nomatch h
      · rw [List.getLast?_concat] at hname'
        exact Option.some.inj hname' ▸ hfits
    · exact nomatch h

theorem fileTarget?_eq_ok {t : FileTree} {dir : Location} {path name : String}
    (hadmits : t.Admits path) (hname : (components path).getLast? = some name)
    (hmay : t.MayBeFile (dir ++ [name])) : t.fileTarget? dir path = .ok (dir ++ [name]) := by
  rw [fileTarget?, hadmits.nul, hadmits.file, hadmits.length, hname]
  simp only [Bool.false_eq_true, Bool.or_false, Bool.not_true, if_false]
  split
  · next hdirectory => exact absurd hdirectory hmay.ne_directory
  · rfl
  · next hnone => rw [if_pos (hmay.fits hnone name List.getLast?_concat)]

theorem writeFile_eq_ok_iff {t t' : FileTree} {cwd path contents : String} :
    t.writeFile cwd path contents = (t', .ok ()) ↔
      t.Admits path ∧ ∃ u dir name,
        t.makeDirectories (startOf cwd path) (components path).dropLast = (u, some dir) ∧
        (components path).getLast? = some name ∧ u.MayBeFile (dir ++ [name]) ∧
        t' = u.set (dir ++ [name]) (.file (.text contents)) := by
  constructor
  · intro h
    rw [writeFile] at h
    split at h
    · exact nomatch h
    next hparents =>
    split at h
    · exact nomatch h
    next hparent =>
    split at h
    · exact nomatch h
    next u dir hmake =>
    split at h
    · next loc htarget =>
      obtain ⟨hnul, hfile, hlength, name, hname, rfl, hmay⟩ := exists_of_fileTarget? htarget
      rw [fitsPath, (grown_of_makeDirectories hmake).limits] at hlength
      exact ⟨⟨by simpa using hparents, by simpa using hparent, hnul, hfile, hlength⟩,
        u, dir, name, hmake, hname, hmay, (Prod.mk.inj h).1.symm⟩
    · exact nomatch h
  · rintro ⟨hadmits, u, dir, name, hmake, hname, hmay, rfl⟩
    have hlimits := (grown_of_makeDirectories hmake).limits
    rw [writeFile]
    simp only [hadmits.parents, hadmits.parent, Bool.false_eq_true, Bool.not_true, if_false, hmake,
      fileTarget?_eq_ok (hadmits.congr hlimits) hname hmay]

/-! ## One artifact below the output directory -/

/-- The path of an artifact: it leads down from a directory, to a file. -/
structure LeadsDown (path : String) : Prop where
  relative : isAbsolute path = false
  ne_nil : components path ≠ []
  dots : ".." ∉ components path

theorem LeadsDown.dots_dropLast {path : String} (h : LeadsDown path) :
    ".." ∉ (components path).dropLast :=
  fun hmem ↦ h.dots (List.dropLast_subset _ hmem)

/-- Whether the directories of a path have been made, the last of them being `base`. -/
def Made (t : FileTree) (cwd root : String) (base : Location) : Prop :=
  t.makeDirectories (startOf cwd root) (components root) = (t, some base)

/-- Whether a file can be written, by what is at the locations below `base` that names lead
through. -/
structure Writable (t : FileTree) (base : Location) (names : List String) : Prop where
  passable : t.Passable base names.dropLast
  target : t.MayBeFile (base ++ names)

/-- Whether no artifact of a batch lies at a location, or has a directory there. -/
def Untouched (base : Location) (artifacts : List Artifact) (loc : Location) : Prop :=
  ∀ a ∈ artifacts, loc ≠ base ++ components a.path ∧
    ¬Between base (base ++ (components a.path).dropLast) loc

/-- What a tree has gained by artifacts that have been written below `base`: their files, the
directories on the way to them, and nothing else. -/
structure Gains (t : FileTree) (base : Location) (artifacts : List Artifact) (t' : FileTree) :
    Prop where
  limits : t'.limits = t.limits
  file : ∀ a ∈ artifacts, t'.lookup? (base ++ components a.path) = some (.file (.text a.contents))
  way : ∀ a ∈ artifacts, ∀ loc, Between base (base ++ (components a.path).dropLast) loc →
    t'.lookup? loc = some .directory
  other : ∀ loc, Untouched base artifacts loc → t'.lookup? loc = t.lookup? loc

theorem not_between_target (base : Location) {names : List String} (h : names ≠ []) :
    ¬Between base (base ++ names.dropLast) (base ++ names) := by
  intro hbetween
  have hlength := ((List.prefix_append_right_inj base).mp hbetween.above).length_le
  rw [List.length_dropLast] at hlength
  exact h (List.eq_nil_of_length_eq_zero (by omega))

section Join

variable {t t' : FileTree} {cwd root : String} {base : Location} {path contents : String}

theorem startOf_join (cwd root : String) (h : LeadsDown path) :
    startOf cwd (join root path) = startOf cwd root := by
  rw [startOf, startOf, isAbsolute_join root h.relative]

theorem dropLast_components_join (root : String) (h : LeadsDown path) :
    (components (join root path)).dropLast = components root ++ (components path).dropLast := by
  rw [components_join root h.relative, List.dropLast_append_of_ne_nil h.ne_nil]

theorem getLast?_components_join (root : String) (h : LeadsDown path) :
    (components (join root path)).getLast? = (components path).getLast? := by
  rw [components_join root h.relative, List.getLast?_append_of_ne_nil _ h.ne_nil]

theorem makeDirectories_join (hmade : Made t cwd root base) (h : LeadsDown path) :
    t.makeDirectories (startOf cwd (join root path)) (components (join root path)).dropLast =
      t.makeDirectories base (components path).dropLast := by
  rw [startOf_join cwd root h, dropLast_components_join root h, makeDirectories_append, hmade]

theorem writeFile_join (hmade : Made t cwd root base) (h : LeadsDown path)
    (hwrite : t.writeFile cwd (join root path) contents = (t', .ok ())) :
    t.Admits (join root path) ∧ t.Writable base (components path) ∧
      t.Gains base [⟨path, contents⟩] t' := by
  obtain ⟨hadmits, u, dir, name, hmake, hname, hmay, rfl⟩ := writeFile_eq_ok_iff.mp hwrite
  rw [makeDirectories_join hmade h] at hmake
  rw [getLast?_components_join root h] at hname
  obtain ⟨rfl, hpassable, hpaved⟩ := makeDirectories_eq_some hmake h.dots_dropLast
  have htarget : base ++ (components path).dropLast ++ [name] = base ++ components path := by
    rw [List.append_assoc, List.dropLast_append_getLast? name hname]
  rw [htarget] at hmay ⊢
  have hnot := not_between_target base h.ne_nil
  have hroot : base ++ components path ≠ [] := by simp [h.ne_nil]
  refine ⟨hadmits, ⟨hpassable, hmay.congr hpaved.limits.symm (hpaved.other _ hnot).symm⟩,
    ⟨hpaved.limits, ?_, ?_, fun loc hloc ↦ ?_⟩⟩
  · simp only [List.mem_singleton, forall_eq]
    exact lookup?_set_self u hroot _
  · simp only [List.mem_singleton, forall_eq]
    intro loc hloc
    have hne : loc ≠ base ++ components path := by
      rintro rfl
      exact hnot hloc
    rw [lookup?_set_of_ne u hne, hpaved.way loc hloc]
  · have hloc := hloc _ List.mem_cons_self
    rw [lookup?_set_of_ne u hloc.1, hpaved.other loc hloc.2]

theorem exists_writeFile_join (hmade : Made t cwd root base) (h : LeadsDown path)
    (hadmits : t.Admits (join root path)) (hwritable : t.Writable base (components path))
    (contents : String) : ∃ t', t.writeFile cwd (join root path) contents = (t', .ok ()) := by
  obtain ⟨u, hmake⟩ := exists_makeDirectories hwritable.passable h.dots_dropLast
  obtain ⟨-, -, hpaved⟩ := makeDirectories_eq_some hmake h.dots_dropLast
  obtain ⟨name, hname⟩ : ∃ name, (components path).getLast? = some name :=
    Option.isSome_iff_exists.mp (List.getLast?_isSome.mpr h.ne_nil)
  have htarget : base ++ (components path).dropLast ++ [name] = base ++ components path := by
    rw [List.append_assoc, List.dropLast_append_getLast? name hname]
  refine ⟨_, writeFile_eq_ok_iff.mpr ⟨hadmits, u, _, name,
    (makeDirectories_join hmade h).trans hmake, (getLast?_components_join root h).trans hname, ?_,
    rfl⟩⟩
  rw [htarget]
  exact hwritable.target.congr hpaved.limits (hpaved.other _ (not_between_target base h.ne_nil))

end Join

/-! ## Artifacts that do not get in each other's way

The ways of two artifacts may share directories, and there they ask for the same. What has to be
ruled out is that one of them leads through the file of the other. -/

/-- Whether neither of two artifacts lies where the other does, or has a directory. -/
def Apart (a b : Artifact) : Prop :=
  ¬components a.path <+: components b.path ∧ ¬components b.path <+: components a.path

theorem Apart.symm {a b : Artifact} (h : Apart a b) : Apart b a :=
  ⟨h.2, h.1⟩

theorem Apart.ne {a b : Artifact} (h : Apart a b) (base : Location) :
    base ++ components a.path ≠ base ++ components b.path := by
  intro heq
  rw [List.append_cancel_left_eq] at heq
  exact h.1 (heq ▸ List.prefix_rfl)

theorem Apart.not_between {a b : Artifact} (h : Apart a b) (base : Location) :
    ¬Between base (base ++ (components b.path).dropLast) (base ++ components a.path) := by
  intro hbetween
  rw [between_append_iff] at hbetween
  exact h.1 (hbetween.2.trans (List.dropLast_prefix _))

section Batch

variable {t t' u : FileTree} {cwd root : String} {base : Location} {a b : Artifact}
  {artifacts : List Artifact}

theorem Gains.lookup?_of_apart (h : t.Gains base [a] t') {loc : Location}
    (hfile : loc ≠ base ++ components a.path)
    (hway : ¬Between base (base ++ (components a.path).dropLast) loc) :
    t'.lookup? loc = t.lookup? loc := by
  refine h.other loc fun a' ha' ↦ ?_
  rw [List.mem_singleton] at ha'
  rw [ha']
  exact ⟨hfile, hway⟩

/-- **One artifact does not change whether another can be written.** On the way to the other, the
first has made directories where directories could be made; at its target it has changed nothing. -/
theorem Gains.writable_iff (h : t.Gains base [a] t') (ha : t.Writable base (components a.path))
    (hne : components a.path ≠ []) (hapart : Apart a b) :
    t'.Writable base (components b.path) ↔ t.Writable base (components b.path) := by
  have hbase : t'.lookup? base = t.lookup? base :=
    h.lookup?_of_apart (by simpa using hne.symm) fun hbetween ↦ hbetween.ne rfl
  have htarget : t'.lookup? (base ++ components b.path) = t.lookup? (base ++ components b.path) :=
    h.lookup?_of_apart (hapart.symm.ne base) (hapart.symm.not_between base)
  -- A location on the way to `b` is not the target of `a`; on the way to `a` it is a directory.
  have hway : ∀ loc, Between base (base ++ (components b.path).dropLast) loc →
      (t'.MayBeDirectory loc ↔ t.MayBeDirectory loc) := by
    intro loc hloc
    by_cases hshared : Between base (base ++ (components a.path).dropLast) loc
    · exact iff_of_true (.inl (h.way a List.mem_cons_self loc hshared))
        (ha.passable.way loc hshared)
    · have hfile : loc ≠ base ++ components a.path := by
        rintro rfl
        exact hapart.not_between base hloc
      have hsame := h.lookup?_of_apart hfile hshared
      exact ⟨fun hmay ↦ hmay.congr h.limits.symm hsame.symm, fun hmay ↦ hmay.congr h.limits hsame⟩
  constructor
  · intro hb
    exact ⟨⟨fun hnil ↦ hbase ▸ hb.passable.start hnil,
      fun loc hloc ↦ (hway loc hloc).mp (hb.passable.way loc hloc)⟩,
      hb.target.congr h.limits.symm htarget.symm⟩
  · intro hb
    exact ⟨⟨fun hnil ↦ hbase ▸ hb.passable.start hnil,
      fun loc hloc ↦ (hway loc hloc).mpr (hb.passable.way loc hloc)⟩,
      hb.target.congr h.limits htarget⟩

theorem Gains.cases (h : t.Gains base artifacts t') (loc : Location) :
    (∃ a ∈ artifacts, loc = base ++ components a.path ∧
        t'.lookup? loc = some (.file (.text a.contents))) ∨
      (∃ a ∈ artifacts, Between base (base ++ (components a.path).dropLast) loc ∧
        t'.lookup? loc = some .directory) ∨
      Untouched base artifacts loc ∧ t'.lookup? loc = t.lookup? loc := by
  by_cases hfile : ∃ a ∈ artifacts, loc = base ++ components a.path
  · obtain ⟨a, ha, rfl⟩ := hfile
    exact .inl ⟨a, ha, rfl, h.file a ha⟩
  by_cases hway : ∃ a ∈ artifacts, Between base (base ++ (components a.path).dropLast) loc
  · obtain ⟨a, ha, hloc⟩ := hway
    exact .inr (.inl ⟨a, ha, hloc, h.way a ha loc hloc⟩)
  · have huntouched : Untouched base artifacts loc := fun a ha ↦
      ⟨fun heq ↦ hfile ⟨a, ha, heq⟩, fun hbetween ↦ hway ⟨a, ha, hbetween⟩⟩
    exact .inr (.inr ⟨huntouched, h.other loc huntouched⟩)

theorem Gains.keepsDirectories (h : t.Gains base artifacts t')
    (hwritable : ∀ a ∈ artifacts, t.Writable base (components a.path)) :
    KeepsDirectories t t' := by
  intro loc hloc
  rcases h.cases loc with ⟨a, ha, rfl, -⟩ | ⟨a, ha, -, hdirectory⟩ | ⟨-, hsame⟩
  · exact absurd hloc (hwritable a ha).target.ne_directory
  · exact hdirectory
  · rw [hsame, hloc]

theorem Gains.cons (ha : t.Gains base [a] u) (h : u.Gains base artifacts t')
    (hwritable : ∀ b ∈ artifacts, u.Writable base (components b.path))
    (hapart : ∀ b ∈ artifacts, Apart a b) : t.Gains base (a :: artifacts) t' where
  limits := h.limits.trans ha.limits
  file := by
    rw [List.forall_mem_cons]
    refine ⟨?_, h.file⟩
    rw [h.other _ fun b hb ↦ ⟨(hapart b hb).ne base, (hapart b hb).not_between base⟩]
    exact ha.file a List.mem_cons_self
  way := by
    rw [List.forall_mem_cons]
    exact ⟨fun loc hloc ↦ h.keepsDirectories hwritable loc (ha.way a List.mem_cons_self loc hloc),
      h.way⟩
  other loc hloc := by
    rw [Untouched, List.forall_mem_cons] at hloc
    rw [h.other loc hloc.2, ha.lookup?_of_apart hloc.1.1 hloc.1.2]

/-! ## Batches

The first artifact of a batch is written in the tree as it is, the others in the tree that this one
leaves. What they ask for there is taken back to the tree before by `Gains.writable_iff`, and what
they leave by `Gains.cons`. -/

theorem exists_of_writeBatch_cons {paths : List String}
    (h : t.writeBatch cwd root (a :: artifacts) = (t', .ok paths)) :
    ∃ u rest, t.writeFile cwd (join root a.path) a.contents = (u, .ok ()) ∧
      u.writeBatch cwd root artifacts = (t', .ok rest) := by
  rw [writeBatch] at h
  split at h
  · exact nomatch h
  next u hwrite =>
  split at h
  · next t'' rest hrest =>
    obtain ⟨rfl, -⟩ := Prod.mk.inj h
    exact ⟨u, rest, hwrite, hrest⟩
  · exact nomatch h

theorem writeBatch_cons {rest : List String}
    (hwrite : t.writeFile cwd (join root a.path) a.contents = (u, .ok ()))
    (h : u.writeBatch cwd root artifacts = (t', .ok rest)) :
    t.writeBatch cwd root (a :: artifacts) = (t', .ok (join root a.path :: rest)) := by
  simp only [writeBatch, hwrite, h]

theorem writeBatch_append (t : FileTree) (cwd root : String) (first second : List Artifact) :
    t.writeBatch cwd root (first ++ second) =
      match t.writeBatch cwd root first with
      | (u, .error cause) => (u, .error cause)
      | (u, .ok paths) =>
        match u.writeBatch cwd root second with
        | (t', .ok paths') => (t', .ok (paths ++ paths'))
        | (t', .error cause) => (t', .error cause) := by
  induction first generalizing t with
  | nil =>
    simp only [List.nil_append, writeBatch]
    split
    · next h => rw [h]
    · next h => rw [h]
  | cons a first ih =>
    rw [List.cons_append, writeBatch, writeBatch]
    split
    · rfl
    · next u _ =>
      rw [ih u]
      rcases u.writeBatch cwd root first with ⟨v, cause | paths⟩
      · rfl
      · dsimp only
        rcases v.writeBatch cwd root second with ⟨w, cause | paths'⟩ <;> rfl

theorem Made.of_makeDirectories
    (h : t.makeDirectories (startOf cwd root) (components root) = (u, some base)) :
    Made u cwd root base :=
  makeDirectories_again h fun _ hloc ↦ hloc

theorem Made.of_keepsDirectories (h : Made t cwd root base) (hkeeps : KeepsDirectories t u) :
    Made u cwd root base :=
  makeDirectories_again h hkeeps

/-- **What a batch that is written asks for and what it leaves.** The induction is on the batch. -/
theorem writeBatch_eq_ok {paths : List String} (hmade : Made t cwd root base)
    (hdown : ∀ a ∈ artifacts, LeadsDown a.path) (hapart : artifacts.Pairwise Apart)
    (h : t.writeBatch cwd root artifacts = (t', .ok paths)) :
    (∀ a ∈ artifacts, t.Admits (join root a.path) ∧ t.Writable base (components a.path)) ∧
      t.Gains base artifacts t' := by
  induction artifacts generalizing t paths with
  | nil =>
    obtain ⟨rfl, -⟩ := Prod.mk.inj h
    exact ⟨by simp, ⟨rfl, by simp, by simp, fun _ _ ↦ rfl⟩⟩
  | cons a artifacts ih =>
    rw [List.forall_mem_cons] at hdown
    rw [List.pairwise_cons] at hapart
    obtain ⟨u, rest, hwrite, hrest⟩ := exists_of_writeBatch_cons h
    obtain ⟨hadmits, hwritable, hgains⟩ := writeFile_join hmade hdown.1 hwrite
    have hkeeps := hgains.keepsDirectories (by simpa using hwritable)
    obtain ⟨hall, hgains'⟩ := ih (hmade.of_keepsDirectories hkeeps) hdown.2 hapart.2 hrest
    refine ⟨List.forall_mem_cons.mpr ⟨⟨hadmits, hwritable⟩, fun b hb ↦ ?_⟩,
      hgains.cons hgains' (fun b hb ↦ (hall b hb).2) hapart.1⟩
    exact ⟨(hall b hb).1.congr hgains.limits.symm,
      (hgains.writable_iff hwritable hdown.1.ne_nil (hapart.1 b hb)).mp (hall b hb).2⟩

/-- **A batch is written if each artifact of it can be.** -/
theorem exists_writeBatch (hmade : Made t cwd root base)
    (hdown : ∀ a ∈ artifacts, LeadsDown a.path) (hapart : artifacts.Pairwise Apart)
    (h : ∀ a ∈ artifacts, t.Admits (join root a.path) ∧ t.Writable base (components a.path)) :
    ∃ t' paths, t.writeBatch cwd root artifacts = (t', .ok paths) := by
  induction artifacts generalizing t with
  | nil => exact ⟨t, [], rfl⟩
  | cons a artifacts ih =>
    rw [List.forall_mem_cons] at hdown h
    rw [List.pairwise_cons] at hapart
    obtain ⟨u, hwrite⟩ := exists_writeFile_join hmade hdown.1 h.1.1 h.1.2 a.contents
    obtain ⟨-, -, hgains⟩ := writeFile_join hmade hdown.1 hwrite
    have hkeeps := hgains.keepsDirectories (by simpa using h.1.2)
    obtain ⟨t', rest, hrest⟩ := ih (hmade.of_keepsDirectories hkeeps) hdown.2 hapart.2
      fun b hb ↦ ⟨(h.2 b hb).1.congr hgains.limits,
        (hgains.writable_iff h.1.2 hdown.1.ne_nil (hapart.1 b hb)).mpr (h.2 b hb).2⟩
    exact ⟨t', _, writeBatch_cons hwrite hrest⟩

/-! ## Making the output directory

An artifact makes all directories of its path, those of the output directory first. Making these
beforehand takes nothing from what is left to do. -/

theorem exists_makeDirectories_of_writeBatch {paths : List String} (hne : artifacts ≠ [])
    (hdown : ∀ a ∈ artifacts, LeadsDown a.path)
    (h : t.writeBatch cwd root artifacts = (t', .ok paths)) :
    ∃ u base, t.makeDirectories (startOf cwd root) (components root) = (u, some base) := by
  obtain ⟨a, artifacts, rfl⟩ := List.exists_cons_of_ne_nil hne
  rw [List.forall_mem_cons] at hdown
  obtain ⟨u, rest, hwrite, -⟩ := exists_of_writeBatch_cons h
  obtain ⟨-, u, dir, name, hmake, -⟩ := writeFile_eq_ok_iff.mp hwrite
  rw [startOf_join cwd root hdown.1, dropLast_components_join root hdown.1,
    makeDirectories_append] at hmake
  split at hmake
  · next u' base hbase => exact ⟨u', base, hbase⟩
  · exact nomatch hmake

theorem writeFile_iff_of_makeDirectories {path contents : String}
    (hmake : t.makeDirectories (startOf cwd root) (components root) = (u, some base))
    (h : LeadsDown path) :
    t.writeFile cwd (join root path) contents = (t', .ok ()) ↔
      u.writeFile cwd (join root path) contents = (t', .ok ()) := by
  have hmade : Made u cwd root base := .of_makeDirectories hmake
  have hsame : t.makeDirectories (startOf cwd (join root path))
      (components (join root path)).dropLast =
        u.makeDirectories (startOf cwd (join root path))
          (components (join root path)).dropLast := by
    rw [makeDirectories_join hmade h, startOf_join cwd root h, dropLast_components_join root h,
      makeDirectories_append, hmake]
  have hlimits := (grown_of_makeDirectories hmake).limits
  have hadmits : t.Admits (join root path) ↔ u.Admits (join root path) :=
    ⟨fun h ↦ h.congr hlimits, fun h ↦ h.congr hlimits.symm⟩
  rw [writeFile_eq_ok_iff, writeFile_eq_ok_iff, hsame, hadmits]

theorem writeBatch_iff_of_makeDirectories
    (hmake : t.makeDirectories (startOf cwd root) (components root) = (u, some base))
    (hne : artifacts ≠ []) (hdown : ∀ a ∈ artifacts, LeadsDown a.path) :
    (∃ paths, t.writeBatch cwd root artifacts = (t', .ok paths)) ↔
      ∃ paths, u.writeBatch cwd root artifacts = (t', .ok paths) := by
  obtain ⟨a, artifacts, rfl⟩ := List.exists_cons_of_ne_nil hne
  rw [List.forall_mem_cons] at hdown
  constructor
  · rintro ⟨paths, h⟩
    obtain ⟨v, rest, hwrite, hrest⟩ := exists_of_writeBatch_cons h
    exact ⟨_, writeBatch_cons ((writeFile_iff_of_makeDirectories hmake hdown.1).mp hwrite) hrest⟩
  · rintro ⟨paths, h⟩
    obtain ⟨v, rest, hwrite, hrest⟩ := exists_of_writeBatch_cons h
    exact ⟨_, writeBatch_cons ((writeFile_iff_of_makeDirectories hmake hdown.1).mpr hwrite) hrest⟩

theorem exists_gains_of_writeBatch {paths : List String} (hne : artifacts ≠ [])
    (hdown : ∀ a ∈ artifacts, LeadsDown a.path) (hapart : artifacts.Pairwise Apart)
    (h : t.writeBatch cwd root artifacts = (t', .ok paths)) :
    ∃ u base, t.makeDirectories (startOf cwd root) (components root) = (u, some base) ∧
      (∀ a ∈ artifacts, u.Admits (join root a.path) ∧ u.Writable base (components a.path)) ∧
      u.Gains base artifacts t' := by
  obtain ⟨u, base, hmake⟩ := exists_makeDirectories_of_writeBatch hne hdown h
  obtain ⟨paths', h'⟩ := (writeBatch_iff_of_makeDirectories hmake hne hdown).mp ⟨paths, h⟩
  exact ⟨u, base, hmake, writeBatch_eq_ok (.of_makeDirectories hmake) hdown hapart h'⟩

theorem exists_writeBatch_of_makeDirectories
    (hmake : t.makeDirectories (startOf cwd root) (components root) = (u, some base))
    (hne : artifacts ≠ []) (hdown : ∀ a ∈ artifacts, LeadsDown a.path)
    (hapart : artifacts.Pairwise Apart)
    (h : ∀ a ∈ artifacts, u.Admits (join root a.path) ∧ u.Writable base (components a.path)) :
    ∃ t' paths, t.writeBatch cwd root artifacts = (t', .ok paths) ∧ u.Gains base artifacts t' := by
  have hmade : Made u cwd root base := .of_makeDirectories hmake
  obtain ⟨t', paths, hbatch⟩ := exists_writeBatch hmade hdown hapart h
  obtain ⟨-, hgains⟩ := writeBatch_eq_ok hmade hdown hapart hbatch
  obtain ⟨paths', hbatch'⟩ :=
    (writeBatch_iff_of_makeDirectories hmake hne hdown).mpr ⟨paths, hbatch⟩
  exact ⟨t', paths', hbatch', hgains⟩

/-! ## Finding the artifacts again -/

/-- **What has been written is found under the path it was written to.** -/
theorem file?_of_gains
    (hmake : t.makeDirectories (startOf cwd root) (components root) = (u, some base))
    (hgains : u.Gains base artifacts t') (hkeeps : KeepsDirectories u t')
    (hbase : u.lookup? base = some .directory) (ha : a ∈ artifacts) (hdown : LeadsDown a.path)
    (hadmits : u.Admits (join root a.path)) :
    t'.walk (startOf cwd (join root a.path)) (components (join root a.path)) =
        some (base ++ components a.path) ∧
      t'.file? cwd (join root a.path) = some (.text a.contents) := by
  have hfile := hgains.file a ha
  have hwalk : t'.walk (startOf cwd (join root a.path)) (components (join root a.path)) =
      some (base ++ components a.path) := by
    rw [startOf_join cwd root hdown, components_join root hdown.relative,
      walk_append (walk_of_makeDirectories hmake hkeeps)]
    refine walk_down hdown.dots (fun _ ↦ hkeeps base hbase) (fun loc hloc hne ↦ ?_) ?_
    · exact hgains.way a ha loc (hloc.dropLast hne)
    · rw [hfile]
      rfl
  have hadmits' := hadmits.congr hgains.limits
  refine ⟨hwalk, ?_⟩
  rw [file?, hadmits'.nul, hadmits'.file, hadmits'.length, hwalk]
  simp only [Bool.false_eq_true, Bool.or_false, Bool.not_true, if_false, hfile]

/-! ## What has changed

Two trees that look alike need not be equal, as their entries may be in another order. So runs are
compared by the set of what has changed at the locations. -/

theorem Gains.cases_of_grown (hgrown : Grown t u) (h : u.Gains base artifacts t')
    (hwritable : ∀ a ∈ artifacts, u.Writable base (components a.path)) (loc : Location) :
    (∃ a ∈ artifacts, loc = base ++ components a.path) ∨ t'.lookup? loc = t.lookup? loc ∨
      t.lookup? loc = none ∧ t'.lookup? loc = some .directory := by
  rcases h.cases loc with ⟨a, ha, hloc, -⟩ | ⟨a, ha, hbetween, hdirectory⟩ | ⟨-, hsame⟩
  · exact .inl ⟨a, ha, hloc⟩
  · refine .inr ?_
    rcases hgrown.lookup? loc with heq | ⟨hnone, -⟩
    · rcases (hwritable a ha).passable.way loc hbetween with hbefore | ⟨hbefore, -⟩
      · exact .inl (hdirectory.trans (hbefore.symm.trans heq))
      · exact .inr ⟨heq.symm.trans hbefore, hdirectory⟩
    · exact .inr ⟨hnone, hdirectory⟩
  · rw [hsame]
    exact .inr (hgrown.lookup? loc)

/-- The locations at which there is something else than before, with what is there now. -/
def changes (before after : FileTree) : Set (Location × Entry) :=
  {c | after.lookup? c.1 = some c.2 ∧ before.lookup? c.1 ≠ some c.2}

theorem Gains.changes_subset {few many : List Artifact} {t₁ t₂ : FileTree} (hgrown : Grown t u)
    (h₁ : u.Gains base few t₁) (h₂ : u.Gains base many t₂) (hsubset : few ⊆ many)
    (hwritable : ∀ a ∈ many, u.Writable base (components a.path)) :
    changes t t₁ ⊆ changes t t₂ := by
  rintro ⟨loc, e⟩ ⟨hentry, hnew⟩
  refine ⟨?_, hnew⟩
  dsimp only at hentry hnew ⊢
  rcases h₁.cases loc with ⟨a, ha, rfl, hfile⟩ | ⟨a, ha, hbetween, hdirectory⟩ | ⟨-, hsame⟩
  · rw [h₂.file a (hsubset ha), ← hfile, hentry]
  · rw [h₂.way a (hsubset ha) loc hbetween, ← hdirectory, hentry]
  · -- What is new but not from the batch is a directory on the way to the output directory.
    rcases hgrown.lookup? loc with heq | ⟨-, hdirectory⟩
    · exact absurd (heq.symm.trans (hsame.symm.trans hentry)) hnew
    · rw [h₂.keepsDirectories hwritable loc hdirectory, ← hdirectory, ← hsame, hentry]

/-- **Two batches together change what each of them changes.** -/
theorem Gains.changes_append {first second : List Artifact} {t₁ t₂ : FileTree} (hgrown : Grown t u)
    (h : u.Gains base (first ++ second) t') (h₁ : u.Gains base first t₁)
    (h₂ : u.Gains base second t₂)
    (hwritable : ∀ a ∈ first ++ second, u.Writable base (components a.path)) :
    changes t t' = changes t t₁ ∪ changes t t₂ := by
  refine Set.Subset.antisymm ?_ (Set.union_subset
    (h₁.changes_subset hgrown h (List.subset_append_left _ _) hwritable)
    (h₂.changes_subset hgrown h (List.subset_append_right _ _) hwritable))
  rintro ⟨loc, e⟩ ⟨hentry, hnew⟩
  have hone : t₁.lookup? loc = t'.lookup? loc ∨ t₂.lookup? loc = t'.lookup? loc := by
    rcases h.cases loc with ⟨a, ha, rfl, hfile⟩ | ⟨a, ha, hbetween, hdirectory⟩ | ⟨hloc, hsame⟩
    · rw [hfile]
      exact (List.mem_append.mp ha).imp (h₁.file a) (h₂.file a)
    · rw [hdirectory]
      exact (List.mem_append.mp ha).imp (h₁.way a · loc hbetween) (h₂.way a · loc hbetween)
    · exact .inl ((h₁.other loc fun a ha ↦ hloc a (List.mem_append_left _ ha)).trans hsame.symm)
  rcases hone with hsame | hsame
  · exact .inl ⟨hsame.trans hentry, hnew⟩
  · exact .inr ⟨hsame.trans hentry, hnew⟩

end Batch

end BarBridge.FileTree
