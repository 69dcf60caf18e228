import BarBridge.Proofs.Module.Stems
import Mathlib.Order.Bounds.Basic

/-!
# The law of renaming

Which name a module is given is said here without a register: by what the modules before it asked
for and were given. A name whose stem nobody has been given is kept. Any other name gets the least
number whose stem is free, counting on from the number that the last module of the same stem got.
`uniquelyNamed_law` says that this is what happens to every list of modules.

## What the register stands for

The register keeps the stems in use and the last number of each stem. `Records` ties it to the
history of names, and one step of naming preserves this, so that the law of one step (`named_next`)
is the law of every module of a list. The tie has a part that is easily overlooked: a stem that was
asked for is in use, under whatever name. Only so does a name whose stem is free find no number to
count on from, and start again at its own.

## What the search is bounded by

The register looks at no more variants than there are stems in use. The number found is all the same
the least of all free ones, and the search for it would end without the bound.
-/

namespace BarBridge

/-- A name that was asked for and the name that was given. -/
structure Naming where
  asked : String
  given : String
  deriving DecidableEq, Repr

/-- The stems in use after some namings. -/
def stemsGiven (history : List Naming) : List String :=
  history.map fun x ↦ fileStem x.given

/-- The number given to the last name with a stem: one if it was kept, and zero if there is no such
name. -/
inductive LastNumber (stem : String) : List Naming → Nat → Prop where
  | none {history : List Naming} (h : ∀ x ∈ history, fileStem x.asked ≠ stem) :
      LastNumber stem history 0
  | kept {name : String} {earlier later : List Naming} (hname : fileStem name = stem)
      (hlater : ∀ x ∈ later, fileStem x.asked ≠ stem) :
      LastNumber stem (earlier ++ ⟨name, name⟩ :: later) 1
  | numbered {name : String} {n : Nat} {earlier later : List Naming} (hname : fileStem name = stem)
      (hn : 2 ≤ n) (hlater : ∀ x ∈ later, fileStem x.asked ≠ stem) :
      LastNumber stem (earlier ++ ⟨name, name ++ "-" ++ toString n⟩ :: later) n

/-- The numbers that a name may get, given the number of the last name with its stem. -/
def freeNumbers (history : List Naming) (name : String) (last : Nat) : Set Nat :=
  {k | max 2 (last + 1) ≤ k ∧ fileStem (name ++ "-" ++ toString k) ∉ stemsGiven history}

/-- What a name becomes after some namings. -/
structure Named (history : List Naming) (name given : String) : Prop where
  /-- A name is kept exactly if its stem is free. -/
  kept_iff : given = name ↔ fileStem name ∉ stemsGiven history
  /-- Otherwise it gets the least number that is free, after as many steps as there are stems in use
  at the most. -/
  numbered : fileStem name ∈ stemsGiven history → ∃ last n,
    LastNumber (fileStem name) history last ∧ given = name ++ "-" ++ toString n ∧
      IsLeast (freeNumbers history name last) n ∧ n ≤ max 2 (last + 1) + history.length

/-- The namings that lead from modules to modules. -/
def namings (modules named : List CustomModule) : List Naming :=
  List.zipWith (fun m m' ↦ ⟨m.name, m'.name⟩) modules named

/-! ## Numbers -/

theorem numbered_one (name : String) : numbered name 1 = name := rfl

theorem numbered_of_two_le (name : String) {n : Nat} (h : 2 ≤ n) :
    numbered name n = name ++ "-" ++ toString n :=
  if_neg (by omega)

theorem le_freeNumber (taken : List String) (name : String) (fuel n : Nat) :
    n ≤ freeNumber taken name fuel n ∧ freeNumber taken name fuel n ≤ n + fuel := by
  induction fuel generalizing n with
  | zero => exact ⟨Nat.le_refl n, Nat.le_refl n⟩
  | succ fuel ih =>
    rw [freeNumber]
    split
    · have := ih (n + 1)
      omega
    · omega

theorem mem_taken_of_lt_freeNumber {taken : List String} {name : String} {fuel n k : Nat}
    (hn : n ≤ k) (hk : k < freeNumber taken name fuel n) :
    fileStem (numbered name k) ∈ taken := by
  induction fuel generalizing n with
  | zero =>
    rw [freeNumber] at hk
    omega
  | succ fuel ih =>
    rw [freeNumber] at hk
    split at hk
    · next htaken =>
      rcases Nat.eq_or_lt_of_le hn with rfl | hn
      · exact htaken
      · exact ih hn hk
    · omega

/-! ## The number of the last name

The number is read off the history from its end. The last name with the stem decides, and names with
other stems are passed over, even if they were given a name with this stem. -/

namespace LastNumber

variable {stem : String} {history : List Naming} {n : Nat}

theorem exists_of_pos (h : LastNumber stem history n) (hn : 0 < n) :
    ∃ x ∈ history, fileStem x.asked = stem := by
  cases h with
  | none => exact absurd hn (Nat.lt_irrefl 0)
  | kept hname | numbered hname => exact ⟨_, List.mem_append_right _ List.mem_cons_self, hname⟩

theorem append_of_ne (h : LastNumber stem history n) {x : Naming} (hx : fileStem x.asked ≠ stem) :
    LastNumber stem (history ++ [x]) n := by
  have hlater : ∀ later : List Naming, (∀ y ∈ later, fileStem y.asked ≠ stem) →
      ∀ y ∈ later ++ [x], fileStem y.asked ≠ stem := by
    intro later h y hy
    rcases List.mem_append.mp hy with hy | hy
    · exact h y hy
    · rwa [List.mem_singleton.mp hy]
  cases h with
  | none h => exact .none (hlater _ h)
  | kept hname h =>
    rw [List.append_assoc, List.cons_append]
    exact .kept hname (hlater _ h)
  | numbered hname hn h =>
    rw [List.append_assoc, List.cons_append]
    exact .numbered hname hn (hlater _ h)

theorem append_numbered (history : List Naming) (name : String) (hn : 1 ≤ n) :
    LastNumber (fileStem name) (history ++ [⟨name, BarBridge.numbered name n⟩]) n := by
  rcases Nat.eq_or_lt_of_le hn with rfl | hn
  · exact .kept rfl (by simp)
  · rw [numbered_of_two_le name hn]
    exact .numbered rfl hn (by simp)

end LastNumber

/-! ## One name -/

namespace Register

/-- What a register holds after some namings. -/
structure Records (r : Register) (history : List Naming) : Prop where
  taken : r.taken = (stemsGiven history).reverse
  last : ∀ stem, LastNumber stem history (r.last stem)
  /-- A stem that was asked for is in use. -/
  asked : ∀ x ∈ history, fileStem x.asked ∈ stemsGiven history

variable {r : Register} {history : List Naming} {name given : String} {names : List String}

theorem one_le_next (r : Register) (name : String) : 1 ≤ r.next name :=
  le_trans (Nat.le_add_left 1 _) (le_freeNumber _ _ _ _).1

theorem records_empty : Records empty [] where
  taken := rfl
  last := fun _ ↦ .none (by simp)
  asked := by simp

namespace Records

theorem mem_taken_iff (h : Records r history) {s : String} :
    s ∈ r.taken ↔ s ∈ stemsGiven history := by
  rw [h.taken, List.mem_reverse]

theorem length_taken (h : Records r history) : r.taken.length = history.length := by
  rw [h.taken, List.length_reverse, stemsGiven, List.length_map]

theorem last_eq_zero (h : Records r history) {stem : String} (hfree : stem ∉ stemsGiven history) :
    r.last stem = 0 := by
  rcases Nat.eq_zero_or_pos (r.last stem) with hzero | hpos
  · exact hzero
  · obtain ⟨x, hx, rfl⟩ := (h.last stem).exists_of_pos hpos
    exact absurd (h.asked x hx) hfree

theorem next_eq_one (h : Records r history) (hfree : fileStem name ∉ stemsGiven history) :
    r.next name = 1 := by
  have htaken : fileStem (numbered name 1) ∉ r.taken := by
    rwa [numbered_one, h.mem_taken_iff]
  rw [next, h.last_eq_zero hfree]
  cases r.taken.length with
  | zero => rfl
  | succ fuel => rw [freeNumber, if_neg htaken]

theorem isLeast_next (h : Records r history) (hmem : fileStem name ∈ stemsGiven history) :
    IsLeast (freeNumbers history name (r.last (fileStem name))) (r.next name) ∧
      r.next name ≤ max 2 (r.last (fileStem name) + 1) + history.length := by
  have hbounds := le_freeNumber r.taken name r.taken.length (r.last (fileStem name) + 1)
  have hfree : fileStem (numbered name (r.next name)) ∉ stemsGiven history := by
    rw [← h.mem_taken_iff]
    exact r.notMem_next name
  rw [← next] at hbounds
  -- The search may begin at one, which is the name itself and in use.
  have hone : r.next name ≠ 1 := by
    intro hone
    rw [hone, numbered_one] at hfree
    exact hfree hmem
  have htwo : 2 ≤ r.next name := by omega
  refine ⟨⟨⟨max_le htwo hbounds.1, ?_⟩, fun k hk ↦ ?_⟩, ?_⟩
  · rwa [← numbered_of_two_le name htwo]
  · obtain ⟨hlower, hfreek⟩ := hk
    by_contra hlt
    have htaken := mem_taken_of_lt_freeNumber (le_trans (le_max_right 2 _) hlower)
      (Nat.lt_of_not_le hlt)
    rw [numbered_of_two_le name (le_trans (le_max_left 2 _) hlower), h.mem_taken_iff] at htaken
    exact hfreek htaken
  · rw [h.length_taken] at hbounds
    omega

/-- **The name that one module is given.** -/
theorem named_next (h : Records r history) (name : String) :
    Named history name (numbered name (r.next name)) := by
  by_cases hmem : fileStem name ∈ stemsGiven history
  · obtain ⟨hleast, hbound⟩ := h.isLeast_next hmem
    have htwo : 2 ≤ r.next name := le_trans (le_max_left 2 _) hleast.1.1
    constructor
    · refine iff_of_false (fun hsame ↦ ?_) (not_not_intro hmem)
      exact fileStem_ne_numbered name (by omega) (congrArg fileStem hsame.symm)
    · exact fun _ ↦ ⟨_, _, h.last _, numbered_of_two_le name htwo, hleast, hbound⟩
  · constructor
    · rw [h.next_eq_one hmem]
      exact iff_of_true (numbered_one name) hmem
    · exact fun h' ↦ absurd h' hmem

/-- **Giving a name is recorded.** -/
theorem enter (h : Records r history) (name : String) :
    Records (r.enter name) (history ++ [⟨name, numbered name (r.next name)⟩]) where
  taken := by
    rw [Register.enter, h.taken, stemsGiven, stemsGiven, List.map_append, List.reverse_append]
    rfl
  last := by
    intro stem
    by_cases hstem : fileStem name = stem
    · subst hstem
      have hlast : (r.enter name).last (fileStem name) = r.next name := by
        rw [Register.last, Register.enter, List.lookup_cons_self]
        rfl
      rw [hlast]
      exact .append_numbered history name (one_le_next r name)
    · have hlast : (r.enter name).last stem = r.last stem := by
        have hne : (stem == fileStem name) = false := by
          simpa using Ne.symm hstem
        rw [Register.last, Register.last, Register.enter, List.lookup_cons, hne]
      rw [hlast]
      exact (h.last stem).append_of_ne hstem
  asked := by
    intro x hx
    rw [stemsGiven, List.map_append, List.mem_append]
    rcases List.mem_append.mp hx with hx | hx
    · exact .inl (h.asked x hx)
    · -- The stem of this name is in use by another name already, or by its own from now on.
      rw [List.mem_singleton.mp hx]
      by_cases hmem : fileStem name ∈ stemsGiven history
      · exact .inl hmem
      · rw [h.next_eq_one hmem, numbered_one]
        exact .inr List.mem_cons_self

/-! ## A list of names -/

/-- **Every name of a list is given as the names before it demand.** The induction is on the names
still to be given out; what has been given out is the history that the register records. -/
theorem named_assign (h : Records r history) {i : Nat} (hname : names[i]? = some name)
    (hgiven : (r.assign names)[i]? = some given) :
    Named (history ++ List.zipWith Naming.mk (names.take i) ((r.assign names).take i)) name
      given := by
  induction names generalizing r history i with
  | nil => exact absurd hname (by simp)
  | cons first names ih =>
    rw [assign] at hgiven ⊢
    cases i with
    | zero =>
      rw [List.getElem?_cons_zero, Option.some.injEq] at hname hgiven
      subst hname hgiven
      rw [List.take_zero, List.zipWith_nil_left, List.append_nil]
      exact h.named_next first
    | succ i =>
      rw [List.getElem?_cons_succ] at hname hgiven
      have hrest := ih (h.enter first) hname hgiven
      rwa [List.append_assoc] at hrest

theorem assign_of_nodup (h : Records r history) (hnodup : (names.map fileStem).Nodup)
    (hfree : ∀ s ∈ names.map fileStem, s ∉ stemsGiven history) : r.assign names = names := by
  induction names generalizing r history with
  | nil => rfl
  | cons name names ih =>
    obtain ⟨hother, hnodup⟩ := List.nodup_cons.mp hnodup
    have hone : r.next name = 1 := h.next_eq_one (hfree _ List.mem_cons_self)
    rw [assign, hone, numbered_one, ih (h.enter name) hnodup]
    intro s hs
    rw [hone, numbered_one, stemsGiven, List.map_append, List.mem_append, not_or]
    refine ⟨hfree s (List.mem_cons_of_mem _ hs), fun hmem ↦ ?_⟩
    rw [List.map_singleton, List.mem_singleton] at hmem
    exact hother (hmem ▸ hs)

end Records

theorem assign_append (r : Register) (names later : List String) :
    r.assign (names ++ later) = r.assign names ++ (names.foldl enter r).assign later := by
  induction names generalizing r with
  | nil => rfl
  | cons name names ih =>
    rw [List.cons_append, assign, assign, ih, List.foldl_cons, List.cons_append]

end Register

theorem uniqueNames_uniqueNames (names : List String) :
    uniqueNames (uniqueNames names) = uniqueNames names := by
  refine Register.records_empty.assign_of_nodup (nodup_stems_uniqueNames names) ?_
  exact fun s _ ↦ List.not_mem_nil

/-! ## A list of modules

Names are given out for a list of names and put into the modules afterwards. What is said of modules
is therefore said of two lists, place by place. -/

theorem zipWith_name_self (modules : List CustomModule) :
    List.zipWith (fun m name ↦ { m with name }) modules (modules.map (·.name)) = modules := by
  induction modules with
  | nil => rfl
  | cons m modules ih => rw [List.map_cons, List.zipWith_cons_cons, ih]

theorem forall₂_zipWith_name {modules : List CustomModule} {names : List String}
    (h : names.length = modules.length) :
    List.Forall₂ (fun m m' ↦ m' = { m with name := m'.name }) modules
      (List.zipWith (fun m name ↦ { m with name }) modules names) := by
  induction modules generalizing names with
  | nil => exact .nil
  | cons m modules ih =>
    rcases names with _ | ⟨name, names⟩
    · exact absurd h (by simp)
    · rw [List.zipWith_cons_cons]
      exact .cons rfl (ih (by simpa using h))

theorem namings_uniquelyNamed (modules : List CustomModule) (i : Nat) :
    namings (modules.take i) ((uniquelyNamed modules).take i) =
      List.zipWith Naming.mk ((modules.map (·.name)).take i)
        ((uniqueNames (modules.map (·.name))).take i) := by
  rw [namings, ← map_name_uniquelyNamed, ← List.map_take, ← List.map_take, List.zipWith_map]

theorem uniquelyNamed_append (modules later : List CustomModule) :
    uniquelyNamed modules <+: uniquelyNamed (modules ++ later) := by
  rw [uniquelyNamed, uniquelyNamed, List.map_append, uniqueNames, uniqueNames,
    Register.assign_append, List.zipWith_append]
  · exact List.prefix_append _ _
  · rw [Register.length_assign, List.length_map]

/-- **The law of renaming.** Modules keep their order and everything but their names, and end up
with different stems. The name of each is what the names before it demand, so modules that follow
change none of them, and modules that have been named once are left alone. -/
theorem uniquelyNamed_law (modules : List CustomModule) :
    List.Forall₂ (fun m m' ↦ m' = { m with name := m'.name }) modules (uniquelyNamed modules) ∧
      ((uniquelyNamed modules).map fun m ↦ fileStem m.name).Nodup ∧
      (∀ i m m', modules[i]? = some m → (uniquelyNamed modules)[i]? = some m' →
        Named (namings (modules.take i) ((uniquelyNamed modules).take i)) m.name m'.name) ∧
      (∀ later, uniquelyNamed modules <+: uniquelyNamed (modules ++ later)) ∧
      uniquelyNamed (uniquelyNamed modules) = uniquelyNamed modules := by
  refine ⟨?_, ?_, ?_, uniquelyNamed_append modules, ?_⟩
  · refine forall₂_zipWith_name ?_
    rw [length_uniqueNames, List.length_map]
  · have hnodup := nodup_stems_uniqueNames (modules.map (·.name))
    rwa [← map_name_uniquelyNamed, List.map_map] at hnodup
  · intro i m m' hm hm'
    have hname : (modules.map (·.name))[i]? = some m.name := by
      rw [List.getElem?_map, hm]
      rfl
    have hgiven : (uniqueNames (modules.map (·.name)))[i]? = some m'.name := by
      rw [← map_name_uniquelyNamed, List.getElem?_map, hm']
      rfl
    rw [namings_uniquelyNamed]
    exact Register.records_empty.named_assign hname hgiven
  · rw [uniquelyNamed, map_name_uniquelyNamed, uniqueNames_uniqueNames, ← map_name_uniquelyNamed]
    exact zipWith_name_self _

/-- A number can be taken by a name that looks numbered, and two names can share a stem. -/
example : uniqueNames ["a/b", "a-b-2", "a-b", "a-b"] = ["a/b", "a-b-2", "a-b-3", "a-b-4"] := by
  decide +kernel

end BarBridge
