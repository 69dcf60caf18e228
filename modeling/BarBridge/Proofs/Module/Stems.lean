import BarBridge.Module.Sections
import Mathlib.Data.List.Nodup
import Mathlib.Data.List.Perm.Subperm

/-!
# The stems of a configuration

Two names can share a stem, and a stem can look like one that has been made for another name. All
that the files of a configuration need is that the stems end up different (`nodup_stems_extract`)
and that each is fit to be a segment of a path (`isSegment_fileStem`).

## Why the search succeeds

The numbered variants of a name have different stems, so those in use cannot take up more of them
than there are stems in use. The search looks at that many variants and settles for the next one
without a look, which is then free as well. The three replacements do not get in the way: a variant
with a number keeps its dash, and none of them is what a replaced name would be followed by.
-/

namespace BarBridge

/-- Whether a text can stand between the slashes of a path, whatever separates the segments. -/
def IsSegment (s : String) : Prop :=
  s ≠ "" ∧ '/' ∉ s.toList ∧ '\\' ∉ s.toList

/-! ## The stem of a name -/

theorem notMem_dashed {c : Char} (h : c = '/' ∨ c = '\\') (name : String) :
    c ∉ (dashed name).toList := by
  rw [dashed, String.toList_ofList, List.mem_map]
  rintro ⟨d, -, hd⟩
  split at hd
  · subst hd
    exact absurd h (by decide)
  · next hne =>
    subst hd
    exact hne h

theorem dashed_append (a b : String) : dashed (a ++ b) = dashed a ++ dashed b := by
  rw [dashed, String.toList_append, List.map_append, String.ofList_append]
  rfl

theorem fileStem_cases (name : String) :
    fileStem name = dashed name ∧ dashed name ≠ "" ∨
      dashed name = "" ∧ fileStem name = "module" ∨
      dashed name = "." ∧ fileStem name = "dot" ∨
      dashed name = ".." ∧ fileStem name = "dot-dot" := by
  unfold fileStem
  split
  · next h => exact .inr (.inl ⟨h, rfl⟩)
  · next h => exact .inr (.inr (.inl ⟨h, rfl⟩))
  · next h => exact .inr (.inr (.inr ⟨h, rfl⟩))
  · next h _ _ => exact .inl ⟨rfl, h⟩

/-- **A stem is a segment.** -/
theorem isSegment_fileStem (name : String) : IsSegment (fileStem name) := by
  rcases fileStem_cases name with ⟨h, hne⟩ | ⟨-, h⟩ | ⟨-, h⟩ | ⟨-, h⟩
  · rw [h]
    exact ⟨hne, notMem_dashed (.inl rfl) name, notMem_dashed (.inr rfl) name⟩
  all_goals
    rw [h]
    exact ⟨by decide, by decide, by decide⟩

/-! ## Numbered names

A name with a number behind it is none of the three that are replaced. So the stem of a variant is
the dashed name with a dash and the number, and the number can be read off it. -/

theorem dashed_of_notMem {s : String} (hslash : '/' ∉ s.toList) (hback : '\\' ∉ s.toList) :
    dashed s = s := by
  have hmap : s.toList.map (fun c ↦ if c = '/' ∨ c = '\\' then '-' else c) = s.toList := by
    refine (List.map_congr_left (g := id) fun c hc ↦ if_neg ?_).trans (List.map_id _)
    rintro (rfl | rfl)
    · exact hslash hc
    · exact hback hc
  rw [dashed, hmap, String.ofList_toList]

theorem isDigit_of_mem_toString {n : Nat} {c : Char} (h : c ∈ (toString n).toList) :
    c.isDigit = true := by
  rw [Nat.toString_eq_repr, Nat.toList_repr] at h
  exact Nat.isDigit_of_mem_toDigits (by decide) (by decide) h

theorem dashed_toString (n : Nat) : dashed (toString n) = toString n := by
  refine dashed_of_notMem (fun h ↦ ?_) fun h ↦ ?_
  · exact absurd (isDigit_of_mem_toString h) (by decide)
  · exact absurd (isDigit_of_mem_toString h) (by decide)

theorem eq_of_toString_eq {m n : Nat} (h : toString m = toString n) : m = n := by
  rw [Nat.toString_eq_ofList_toDigits, Nat.toString_eq_ofList_toDigits, String.ofList_inj] at h
  rw [← Nat.ofDigitChars_ten_toDigits (n := m), h, Nat.ofDigitChars_ten_toDigits]

theorem dashed_numbered (name : String) {n : Nat} (hn : n ≠ 1) :
    dashed (numbered name n) = dashed name ++ "-" ++ toString n := by
  rw [numbered, if_neg hn, dashed_append, dashed_append, dashed_toString]
  rfl

theorem fileStem_numbered (name : String) {n : Nat} (hn : n ≠ 1) :
    fileStem (numbered name n) = dashed name ++ "-" ++ toString n := by
  have hdash : '-' ∈ (dashed (numbered name n)).toList := by
    rw [dashed_numbered name hn, String.toList_append, String.toList_append]
    simp
  rcases fileStem_cases (numbered name n) with ⟨h, -⟩ | ⟨h, -⟩ | ⟨h, -⟩ | ⟨h, -⟩
  · rw [h, dashed_numbered name hn]
  all_goals
    rw [h] at hdash
    exact absurd hdash (by decide)

theorem fileStem_ne_numbered (name : String) {n : Nat} (hn : n ≠ 1) :
    fileStem name ≠ fileStem (numbered name n) := by
  intro h
  rw [fileStem_numbered name hn, ← String.toList_inj, String.toList_append,
    String.toList_append] at h
  -- A kept name is shorter than its variant; a replacement is not the replaced name with a number.
  rcases fileStem_cases name with ⟨hstem, -⟩ | ⟨hname, hstem⟩ | ⟨hname, hstem⟩ | ⟨hname, hstem⟩
  · rw [hstem] at h
    have hlength := congrArg List.length h
    simp at hlength
  all_goals
    rw [hstem, hname] at h
    simp at h

/-- **Different numbers give different stems.** -/
theorem eq_of_fileStem_numbered {name : String} {m n : Nat}
    (h : fileStem (numbered name m) = fileStem (numbered name n)) : m = n := by
  have hone : numbered name 1 = name := rfl
  by_cases hm : m = 1
  · by_cases hn : n = 1
    · rw [hm, hn]
    · rw [hm, hone] at h
      exact absurd h (fileStem_ne_numbered name hn)
  · by_cases hn : n = 1
    · rw [hn, hone] at h
      exact absurd h.symm (fileStem_ne_numbered name hm)
    · rw [fileStem_numbered name hm, fileStem_numbered name hn] at h
      exact eq_of_toString_eq (by simpa using h)

/-! ## The search -/

theorem freeNumber_spec (taken : List String) (name : String) (fuel n : Nat) :
    fileStem (numbered name (freeNumber taken name fuel n)) ∉ taken ∨
      freeNumber taken name fuel n = n + fuel ∧
        ∀ k < fuel, fileStem (numbered name (n + k)) ∈ taken := by
  induction fuel generalizing n with
  | zero => exact .inr ⟨rfl, by simp⟩
  | succ fuel ih =>
    rw [freeNumber]
    split
    · next htaken =>
      -- The variants taken are this one and those that the rest of the search finds taken.
      rcases ih (n + 1) with hfree | ⟨hn, hall⟩
      · exact .inl hfree
      · refine .inr ⟨by omega, fun k hk ↦ ?_⟩
        rcases k with _ | k
        · exact htaken
        · rw [show n + (k + 1) = n + 1 + k by omega]
          exact hall k (by omega)
    · next hfree => exact .inl hfree

theorem exists_free (taken : List String) (name : String) (n : Nat)
    (h : ∀ k < taken.length, fileStem (numbered name (n + k)) ∈ taken) :
    fileStem (numbered name (n + taken.length)) ∉ taken := by
  intro hlast
  -- One variant more than stems in use, all different, would have to be in use.
  have hinj : Function.Injective fun k ↦ fileStem (numbered name (n + k)) := by
    intro i j hij
    have := eq_of_fileStem_numbered hij
    omega
  have hnodup : ((List.range (taken.length + 1)).map fun k ↦
      fileStem (numbered name (n + k))).Nodup :=
    List.nodup_range.map hinj
  have hsubset : ((List.range (taken.length + 1)).map fun k ↦
      fileStem (numbered name (n + k))) ⊆ taken := by
    intro s hs
    obtain ⟨k, hk, rfl⟩ := List.mem_map.mp hs
    rw [List.mem_range] at hk
    rcases Nat.lt_succ_iff_lt_or_eq.mp hk with hk | rfl
    · exact h k hk
    · exact hlast
  have hlength := (List.subperm_of_subset hnodup hsubset).length_le
  rw [List.length_map, List.length_range] at hlength
  omega

namespace Register

/-- **The number that a name gets is free.** -/
theorem notMem_next (r : Register) (name : String) :
    fileStem (numbered name (r.next name)) ∉ r.taken := by
  rw [next]
  rcases freeNumber_spec r.taken name r.taken.length (r.last (fileStem name) + 1) with
    hfree | ⟨hn, hall⟩
  · exact hfree
  · rw [hn]
    exact exists_free _ _ _ hall

theorem length_assign (r : Register) (names : List String) :
    (r.assign names).length = names.length := by
  induction names generalizing r with
  | nil => rfl
  | cons name names ih => rw [assign, List.length_cons, List.length_cons, ih]

/-- Giving out a name takes its stem, so that no later one is the same. The induction is on the
names still to be given out, with the stems in use generalised. -/
theorem nodup_assign (r : Register) (names : List String) :
    ((r.assign names).map fileStem).Nodup ∧
      ∀ s ∈ (r.assign names).map fileStem, s ∉ r.taken := by
  induction names generalizing r with
  | nil => simp [assign]
  | cons name names ih =>
    obtain ⟨hnodup, hfree⟩ := ih (r.enter name)
    -- The names behind keep clear of the stem that is taken now, and of those taken before.
    have hother : ∀ s ∈ ((r.enter name).assign names).map fileStem,
        s ≠ fileStem (numbered name (r.next name)) ∧ s ∉ r.taken := by
      intro s hs
      have hs' : s ∉ fileStem (numbered name (r.next name)) :: r.taken := hfree s hs
      rwa [List.mem_cons, not_or] at hs'
    rw [assign, List.map_cons]
    constructor
    · refine List.nodup_cons.mpr ⟨fun hmem ↦ ?_, hnodup⟩
      exact (hother _ hmem).1 rfl
    · intro s hs
      rcases List.mem_cons.mp hs with rfl | hs
      · exact r.notMem_next name
      · exact (hother s hs).2

end Register

/-! ## The modules of a configuration -/

theorem length_uniqueNames (names : List String) : (uniqueNames names).length = names.length :=
  Register.length_assign _ _

theorem nodup_stems_uniqueNames (names : List String) :
    ((uniqueNames names).map fileStem).Nodup :=
  (Register.nodup_assign Register.empty names).1

theorem map_name_zipWith {modules : List CustomModule} {names : List String}
    (h : names.length = modules.length) :
    (List.zipWith (fun m name ↦ { m with name }) modules names).map (·.name) = names := by
  induction modules generalizing names with
  | nil => rw [List.eq_nil_of_length_eq_zero h]; rfl
  | cons m modules ih =>
    rcases names with _ | ⟨name, names⟩
    · exact absurd h (by simp)
    · rw [List.zipWith_cons_cons, List.map_cons, ih (by simpa using h)]

theorem map_name_uniquelyNamed (modules : List CustomModule) :
    (uniquelyNamed modules).map (·.name) = uniqueNames (modules.map (·.name)) := by
  refine map_name_zipWith ?_
  rw [length_uniqueNames, List.length_map]

/-- **The stems of a configuration are different.** -/
theorem nodup_stems_extract (config : Json) (options : Options) :
    ((extract config options).map fun m ↦ fileStem m.name).Nodup := by
  have hmap : ((extract config options).map fun m ↦ fileStem m.name) =
      ((extract config options).map (·.name)).map fileStem := by
    rw [List.map_map]
    rfl
  rw [hmap, extract, map_name_uniquelyNamed]
  exact nodup_stems_uniqueNames _

end BarBridge
