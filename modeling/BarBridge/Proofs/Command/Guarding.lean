import BarBridge.Command
import BarBridge.Proofs.Command.FilterArguments

/-!
# Treatment and guard

A command is treated first and guarded afterwards. The treatment does not look at the condition, and
the guard does not look at what it stands around, so the two can be taken apart: the line under a
condition is the guard around the line under none (`guard_commutes`). The command of the user goes
through both without a change. It stands in the line as it was given, behind the opening of a
filter, of a guard or of both.

## Treatments by their modules

The rules for treatments are tried in order, each for what the rules before it left over.
`Treatment.Suits` gives every treatment a condition of its own that does not depend on the others.
What is said of treatments is said by going through the five.
-/

namespace BarBridge

namespace CustomModule

theorem hasCustomFormat_iff (m : CustomModule) :
    m.hasCustomFormat = true ↔ m.format ≠ plainFormat ∧ m.format ≠ namedFormat := by
  rw [hasCustomFormat, Bool.and_eq_true, bne_iff_ne, bne_iff_ne]

/-- A module whose output does not go on the bar as it is: it has a format of its own, or picks an
icon for an object. -/
def NeedsFilter (m : CustomModule) : Prop :=
  m.format ≠ plainFormat ∧ m.format ≠ namedFormat ∨ m.isJson = true ∧ m.icons ≠ []

theorem needsFilter_iff (m : CustomModule) :
    m.NeedsFilter ↔ m.hasCustomFormat = true ∨ m.isJson = true ∧ m.icons ≠ [] := by
  rw [NeedsFilter, hasCustomFormat_iff]

/-- The command behind which the filter for the module's output stands. -/
def filtered (m : CustomModule) : String :=
  if m.isJson then Filter.json m.exec m.format m.icons else Filter.plain m.exec m.format

/-- The module under another condition. -/
def under (m : CustomModule) (condition : String) : CustomModule :=
  { m with execIf := condition }

end CustomModule

/-! ## The treatment of a module -/

namespace Treatment

/-- The modules that a treatment is for. -/
def Suits (m : CustomModule) : Treatment → Prop
  | none => m.exec = ""
  | jsonFilter => m.exec ≠ "" ∧ m.isJson = true ∧ (m.icons ≠ [] ∨ m.hasCustomFormat = true)
  | jsonPassthrough => m.exec ≠ "" ∧ m.isJson = true ∧ m.icons = [] ∧ m.hasCustomFormat = false
  | plainFilter => m.exec ≠ "" ∧ m.isJson = false ∧ m.hasCustomFormat = true
  | passthrough => m.exec ≠ "" ∧ m.isJson = false ∧ m.hasCustomFormat = false

variable {m : CustomModule} {t : Treatment}

theorem suits_ofModule (m : CustomModule) : (ofModule m).Suits m := by
  unfold ofModule
  split
  · next hexec => exact hexec
  · next hexec =>
    split
    · next hjson =>
      split
      · next hfilter => exact ⟨hexec, hjson, by simpa using hfilter⟩
      · next hfilter => exact ⟨hexec, hjson, by simpa using hfilter⟩
    · next hjson =>
      have hplain : m.isJson = false := eq_false_of_ne_true hjson
      split
      · next hformat => exact ⟨hexec, hplain, hformat⟩
      · next hformat => exact ⟨hexec, hplain, eq_false_of_ne_true hformat⟩

theorem ofModule_of_suits (h : t.Suits m) : ofModule m = t := by
  unfold ofModule
  cases t with
  | none => exact if_pos h
  | jsonFilter =>
    obtain ⟨hexec, hjson, hfilter⟩ := h
    rw [if_neg hexec, if_pos hjson, if_pos (by simpa using hfilter)]
  | jsonPassthrough =>
    obtain ⟨hexec, hjson, hfilter⟩ := h
    rw [if_neg hexec, if_pos hjson, if_neg (by simpa using hfilter)]
  | plainFilter =>
    obtain ⟨hexec, hplain, hformat⟩ := h
    rw [if_neg hexec, if_neg (by rw [hplain]; decide), if_pos hformat]
  | passthrough =>
    obtain ⟨hexec, hplain, hformat⟩ := h
    rw [if_neg hexec, if_neg (by rw [hplain]; decide), if_neg (by rw [hformat]; decide)]

theorem ofModule_eq_iff : ofModule m = t ↔ t.Suits m := by
  constructor
  · rintro rfl
    exact suits_ofModule m
  · exact ofModule_of_suits

theorem Suits.parsesJson_iff (h : t.Suits m) :
    t.parsesJson = true ↔ m.isJson = true ∧ m.exec ≠ "" := by
  cases t with
  | none => exact iff_of_false Bool.false_ne_true fun hrun ↦ hrun.2 h
  | jsonFilter | jsonPassthrough => exact iff_of_true rfl ⟨h.2.1, h.1⟩
  | plainFilter | passthrough =>
    exact iff_of_false Bool.false_ne_true fun hrun ↦ absurd hrun.1 (by rw [h.2.1]; decide)

theorem Suits.isFilter_iff (h : t.Suits m) :
    t.isFilter = true ↔ m.exec ≠ "" ∧ m.NeedsFilter := by
  rw [CustomModule.needsFilter_iff]
  cases t with
  | none => exact iff_of_false Bool.false_ne_true fun hrun ↦ hrun.1 h
  | jsonFilter => exact iff_of_true rfl ⟨h.1, h.2.2.symm.imp_right fun hicons ↦ ⟨h.2.1, hicons⟩⟩
  | jsonPassthrough =>
    obtain ⟨-, -, hicons, hformat⟩ := h
    exact iff_of_false Bool.false_ne_true (by simp [hicons, hformat])
  | plainFilter => exact iff_of_true rfl ⟨h.1, .inl h.2.2⟩
  | passthrough =>
    obtain ⟨-, hplain, hformat⟩ := h
    exact iff_of_false Bool.false_ne_true (by simp [hplain, hformat])

theorem Suits.apply_eq (h : t.Suits m) :
    t.apply m = if t.isFilter then m.filtered else m.exec := by
  rw [CustomModule.filtered]
  cases t with
  | none => exact h.symm
  | jsonFilter =>
    rw [if_pos h.2.1]
    rfl
  | plainFilter =>
    have hplain : ¬m.isJson = true := by rw [h.2.1]; decide
    rw [if_neg hplain]
    rfl
  | jsonPassthrough | passthrough => rfl

end Treatment

/-! ## The command in its line

That the command stands in the line is said by `<:+:`, which is transitive, so filter and guard can
be taken one at a time. That a filter changes the line at all is seen from its length. -/

namespace Filter

theorem exec_infix_line (program exec : String) (values : List (List Char)) :
    exec.toList <:+: line program exec values := by
  refine ⟨opening.toList, (remainder program).toList ++
    spaced (values.map fun v ↦ (argument v).toList), ?_⟩
  rw [line, ← List.append_assoc]

theorem length_lt_line (program exec : String) (values : List (List Char)) :
    exec.toList.length < (line program exec values).length := by
  have hopening : 0 < opening.toList.length := by decide
  rw [line, List.length_append, List.length_append, List.length_append]
  omega

end Filter

namespace CustomModule

theorem exists_toList_filtered (m : CustomModule) :
    ∃ program values, m.filtered.toList = Filter.line program m.exec values := by
  rw [filtered]
  split
  · exact ⟨_, _, Filter.toList_json m.exec m.format m.icons⟩
  · exact ⟨_, _, Filter.toList_plain m.exec m.format⟩

theorem exec_infix_filtered (m : CustomModule) : m.exec.toList <:+: m.filtered.toList := by
  obtain ⟨program, values, hline⟩ := m.exists_toList_filtered
  rw [hline]
  exact Filter.exec_infix_line program m.exec values

theorem filtered_ne (m : CustomModule) : m.filtered ≠ m.exec := by
  obtain ⟨program, values, hline⟩ := m.exists_toList_filtered
  intro heq
  have hlength := Filter.length_lt_line program m.exec values
  rw [← hline, heq] at hlength
  exact absurd hlength (lt_irrefl _)

end CustomModule

namespace Command

theorem infix_guarded (line condition : String) :
    line.toList <:+: (guarded line condition).toList := by
  rw [guarded]
  split
  · exact List.infix_rfl
  · simp only [String.toList_append, List.append_assoc]
    exact ⟨"if ".toList ++ (condition.toList ++ "; then ".toList), "; fi".toList, by simp⟩

theorem guarded_empty (line : String) : guarded line "" = line := by
  rw [guarded, if_pos rfl]

theorem line_ofModule (m : CustomModule) :
    (ofModule m).line =
      if m.exec = "" then "" else guarded ((Treatment.ofModule m).apply m) m.execIf := by
  have hnone : Treatment.ofModule m = .none ↔ m.exec = "" := Treatment.ofModule_eq_iff
  simp only [ofModule, hnone]

theorem line_under (m : CustomModule) (condition : String) :
    (ofModule (m.under condition)).line =
      if m.exec = "" then "" else guarded ((Treatment.ofModule m).apply m) condition :=
  line_ofModule (m.under condition)

theorem line_under_empty (m : CustomModule) :
    (ofModule (m.under "")).line = (Treatment.ofModule m).apply m := by
  rw [line_under, guarded_empty]
  split
  · next hexec =>
    have hnone : Treatment.ofModule m = .none := Treatment.ofModule_of_suits hexec
    rw [hnone]
    rfl
  · rfl

theorem exec_infix_line (m : CustomModule) :
    m.exec.toList <:+: (ofModule m).line.toList := by
  rw [line_ofModule]
  split
  · next hexec => simp only [hexec, List.infix_rfl]
  · rw [(Treatment.suits_ofModule m).apply_eq]
    refine List.IsInfix.trans ?_ (infix_guarded _ _)
    split
    · exact m.exec_infix_filtered
    · exact List.infix_rfl

theorem line_ofModule_ne_iff (m : CustomModule) : (ofModule m).line ≠ "" ↔ m.exec ≠ "" := by
  refine not_congr ⟨fun hline ↦ ?_, fun hexec ↦ ?_⟩
  · have hinfix := exec_infix_line m
    rw [hline] at hinfix
    exact String.toList_eq_nil_iff.mp (List.infix_nil.mp hinfix)
  · rw [line_ofModule, if_pos hexec]

end Command

/-- **Guarding commutes with treating.** Whatever the condition of a module is, its command is
treated, read and warned of as under none, and its line is the guard around the line under none. A
module without a command has an empty line, and no other module has. The command itself stands in
the line as it is, behind a filter exactly if the module needs one. -/
theorem guard_commutes (m : CustomModule) (condition : String) :
    let bare := Command.ofModule (m.under "")
    let guarded := Command.ofModule (m.under condition)
    (guarded.treatment = bare.treatment ∧ guarded.parsesJson = bare.parsesJson ∧
        guarded.warnings = bare.warnings) ∧
      guarded.line = (if m.exec = "" then "" else Command.guarded bare.line condition) ∧
      (guarded.line ≠ "" ↔ m.exec ≠ "") ∧
      (guarded.parsesJson = true ↔ m.isJson = true ∧ m.exec ≠ "") ∧
      (m.exec ≠ "" → m.exec.toList <:+: guarded.line.toList ∧
        (m.NeedsFilter → bare.line = m.filtered) ∧ (bare.line = m.exec ↔ ¬m.NeedsFilter)) := by
  intro bare guarded
  have hsuits := Treatment.suits_ofModule m
  have hbare : bare.line = if (Treatment.ofModule m).isFilter then m.filtered else m.exec :=
    (Command.line_under_empty m).trans hsuits.apply_eq
  refine ⟨⟨rfl, rfl, rfl⟩, ?_, Command.line_ofModule_ne_iff (m.under condition),
    hsuits.parsesJson_iff, fun hexec ↦ ⟨Command.exec_infix_line (m.under condition), ?_, ?_⟩⟩
  · rw [Command.line_under, Command.line_under_empty]
  · intro hneeds
    rw [hbare, if_pos (hsuits.isFilter_iff.mpr ⟨hexec, hneeds⟩)]
  · have hfilter : (Treatment.ofModule m).isFilter = true ↔ m.NeedsFilter := by
      rw [hsuits.isFilter_iff, and_iff_right hexec]
    rw [hbare, ← hfilter]
    split
    · next h => exact iff_of_false m.filtered_ne (not_not_intro h)
    · next h => exact iff_of_true rfl h

end BarBridge
