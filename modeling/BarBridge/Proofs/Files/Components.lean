import Mathlib.Data.List.Basic
import BarBridge.Files.Path

/-!
# The components of a path that is put together

A path that is written as texts with slashes between them has these texts for components, as long as
each of them is one. That is all a path of known shape needs; the rules for dots and for slashes in
a row do not come into play.
-/

namespace BarBridge.Path

/-- Whether a text is a component: not empty, not the single dot, and without a slash. -/
structure IsComponent (s : String) : Prop where
  ne_empty : s ≠ ""
  ne_dot : s ≠ "."
  slash_notMem : '/' ∉ s.toList

theorem segments_of_notMem {cs : List Char} (h : '/' ∉ cs) : segments cs = [cs] := by
  induction cs with
  | nil => rfl
  | cons c cs ih =>
    rw [List.mem_cons, not_or] at h
    rw [segments, if_neg (Ne.symm h.1), ih h.2]

theorem segments_append {cs : List Char} (h : '/' ∉ cs) (ds : List Char) :
    segments (cs ++ '/' :: ds) = cs :: segments ds := by
  induction cs with
  | nil => rw [List.nil_append, segments, if_pos rfl]
  | cons c cs ih =>
    rw [List.mem_cons, not_or] at h
    rw [List.cons_append, segments, if_neg (Ne.symm h.1), ih h.2]

theorem IsComponent.filter_cons {s : String} (h : IsComponent s) (ss : List (List Char)) :
    ((s.toList :: ss).filter fun s ↦ s ≠ [] ∧ s ≠ ['.']) =
      s.toList :: ss.filter fun s ↦ s ≠ [] ∧ s ≠ ['.'] := by
  refine List.filter_cons_of_pos (decide_eq_true ⟨fun hnil ↦ h.ne_empty ?_, fun hdot ↦ h.ne_dot ?_⟩)
  · rw [← String.toList_inj, hnil]
    rfl
  · rw [← String.toList_inj, hdot]
    rfl

theorem components_of_isComponent {s : String} (h : IsComponent s) : components s = [s] := by
  rw [components, segments_of_notMem h.slash_notMem, h.filter_cons]
  simp

/-- **A component, a slash and the rest.** -/
theorem components_append {s : String} (h : IsComponent s) (rest : String) :
    components (s ++ "/" ++ rest) = s :: components rest := by
  have hchars : (s ++ "/" ++ rest).toList = s.toList ++ '/' :: rest.toList := by
    rw [String.toList_append, String.toList_append, List.append_assoc]
    rfl
  rw [components, hchars, segments_append h.slash_notMem, h.filter_cons, List.map_cons,
    String.ofList_toList, components]

theorem isAbsolute_of_isComponent {s : String} (h : IsComponent s) (rest : String) :
    isAbsolute (s ++ rest) = false := by
  rw [isAbsolute, String.toList_append, beq_eq_false_iff_ne]
  intro hhead
  cases hs : s.toList with
  | nil =>
    refine h.ne_empty ?_
    rw [← String.toList_inj, hs]
    rfl
  | cons c cs =>
    rw [hs] at hhead
    obtain rfl : c = '/' := Option.some.inj hhead
    exact h.slash_notMem (by rw [hs]; exact List.mem_cons_self)

/-! ## Joined paths

A base is closed by a slash unless it has one or is empty, so a slash may or may not come in
between. The components are the same either way (`closed_cases`). The path behind it must not be
absolute, since it would take the place of the base. -/

theorem segments_ne_nil (cs : List Char) : segments cs ≠ [] := by
  cases cs with
  | nil => exact List.cons_ne_nil _ _
  | cons c cs =>
    rw [segments]
    split
    · exact List.cons_ne_nil _ _
    · split <;> exact List.cons_ne_nil _ _

theorem segments_append_slash (cs ds : List Char) :
    segments (cs ++ '/' :: ds) = segments cs ++ segments ds := by
  induction cs with
  | nil => rfl
  | cons c cs ih =>
    rw [List.cons_append, segments, segments, ih]
    split
    · rfl
    · obtain ⟨s, ss, hs⟩ := List.exists_cons_of_ne_nil (segments_ne_nil cs)
      rw [hs]
      rfl

theorem components_append_slash (p q : String) :
    components (p ++ "/" ++ q) = components p ++ components q := by
  have hchars : (p ++ "/" ++ q).toList = p.toList ++ '/' :: q.toList := by
    rw [String.toList_append, String.toList_append, List.append_assoc]
    rfl
  rw [components, hchars, segments_append_slash, List.filter_append, List.map_append]
  rfl

theorem closed_cases (p : String) :
    p = "" ∧ closed p = "" ∨ ∃ q, closed p = q ++ "/" ∧ components q = components p := by
  by_cases hempty : p = ""
  · exact .inl ⟨hempty, by rw [closed, if_pos (.inl hempty), hempty]⟩
  by_cases hslash : p.toList.getLast? = some '/'
  · obtain ⟨cs, hcs⟩ := List.getLast?_eq_some_iff.mp hslash
    have hp : p = String.ofList cs ++ "/" := by
      rw [← String.toList_inj, hcs, String.toList_append, String.toList_ofList]
      rfl
    refine .inr ⟨String.ofList cs, by rw [closed, if_pos (.inr hslash), hp], ?_⟩
    have hempty : components "" = [] := rfl
    have happend := components_append_slash (String.ofList cs) ""
    rw [String.append_empty, ← hp, hempty, List.append_nil] at happend
    exact happend.symm
  · exact .inr ⟨p, by rw [closed, if_neg (not_or_intro hempty hslash)], rfl⟩

/-- **The components of a path below another.** -/
theorem components_join (base : String) {path : String} (h : isAbsolute path = false) :
    components (join base path) = components base ++ components path := by
  rw [join, h, if_neg Bool.false_ne_true]
  rcases closed_cases base with ⟨rfl, hclosed⟩ | ⟨q, hclosed, hq⟩
  · rw [hclosed, String.empty_append]
    rfl
  · rw [hclosed, components_append_slash, hq]

theorem isAbsolute_join (base : String) {path : String} (h : isAbsolute path = false) :
    isAbsolute (join base path) = isAbsolute base := by
  rw [join, h, if_neg Bool.false_ne_true]
  by_cases hempty : base = ""
  · rw [closed, if_pos (.inl hempty), hempty, String.empty_append, h]
    rfl
  · have hne : base.toList ≠ [] := fun hnil ↦ hempty (String.toList_inj.mp hnil)
    obtain ⟨c, cs, hcs⟩ := List.exists_cons_of_ne_nil hne
    rw [closed]
    split <;> simp [isAbsolute, String.toList_append, hcs]

theorem namesDirectory_append_slash (p q : String) :
    namesDirectory (p ++ "/" ++ q) = namesDirectory q := by
  have hchars : (p ++ "/" ++ q).toList = p.toList ++ '/' :: q.toList := by
    rw [String.toList_append, String.toList_append, List.append_assoc]
    rfl
  rw [namesDirectory, namesDirectory, hchars, segments_append_slash,
    List.getLast?_append_of_ne_nil _ (segments_ne_nil _)]

theorem namesDirectory_join (base : String) {path : String} (h : isAbsolute path = false) :
    namesDirectory (join base path) = namesDirectory path := by
  rw [join, h, if_neg Bool.false_ne_true]
  rcases closed_cases base with ⟨-, hclosed⟩ | ⟨q, hclosed, -⟩
  · rw [hclosed, String.empty_append]
  · rw [hclosed, namesDirectory_append_slash]

theorem namesDirectory_of_isComponent {s : String} (h : IsComponent s) (hdots : s ≠ "..") :
    namesDirectory s = false := by
  have hlist : ∀ cs : List Char, s.toList = cs → s = String.ofList cs := by
    rintro cs rfl
    exact String.ofList_toList.symm
  rw [namesDirectory, segments_of_notMem h.slash_notMem, List.getLast?_singleton]
  split
  · contradiction
  · next heq => exact absurd (hlist _ (Option.some.inj heq)) h.ne_empty
  · next heq => exact absurd (hlist _ (Option.some.inj heq)) h.ne_dot
  · next heq => exact absurd (hlist _ (Option.some.inj heq)) hdots
  · rfl

/-! ## NUL characters -/

theorem hasNul_append (s t : String) : hasNul (s ++ t) = (hasNul s || hasNul t) := by
  rw [hasNul, String.toList_append, List.contains_append]
  rfl

theorem hasNul_closed (path : String) : hasNul (closed path) = hasNul path := by
  rw [closed]
  split
  · rfl
  · rw [hasNul_append]
    exact Bool.or_false _

theorem hasNul_join (base : String) {path : String} (h : isAbsolute path = false) :
    hasNul (join base path) = (hasNul base || hasNul path) := by
  rw [join, h, if_neg Bool.false_ne_true, hasNul_append, hasNul_closed]

theorem mem_of_mem_segments {cs s : List Char} {c : Char} (hs : s ∈ segments cs) (hc : c ∈ s) :
    c ∈ cs := by
  induction cs generalizing s with
  | nil =>
    rw [List.mem_singleton.mp hs] at hc
    exact hc
  | cons d cs ih =>
    rw [segments] at hs
    split at hs
    · rcases List.mem_cons.mp hs with rfl | hs
      · exact absurd hc List.not_mem_nil
      · exact List.mem_cons_of_mem d (ih hs hc)
    split at hs
    · next hnil => exact absurd hnil (segments_ne_nil cs)
    · next first rest hsegments =>
      rw [hsegments] at ih
      rcases List.mem_cons.mp hs with rfl | hs
      · rcases List.mem_cons.mp hc with rfl | hc
        · exact List.mem_cons_self
        · exact List.mem_cons_of_mem d (ih List.mem_cons_self hc)
      · exact List.mem_cons_of_mem d (ih (List.mem_cons_of_mem first hs) hc)

theorem hasNul_of_mem_components {s path : String} (h : s ∈ components path)
    (hnul : hasNul s = true) : hasNul path = true := by
  obtain ⟨cs, hcs, rfl⟩ := List.mem_map.mp h
  rw [hasNul, String.toList_ofList, List.contains_iff_mem] at hnul
  rw [hasNul, List.contains_iff_mem]
  exact mem_of_mem_segments (List.mem_filter.mp hcs).1 hnul

end BarBridge.Path
