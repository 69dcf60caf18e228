import BarBridge.Proofs.Artifact.Losses
import BarBridge.Proofs.Command.Guarding
import BarBridge.Proofs.Module.WellFormed

/-!
# Modules that are converted in full

A report without notes says that everything carried over. The warnings about the widget are raised
elsewhere, from the same module but by conditions of their own. With one exception each of these
conditions makes for a note as well (`exists_note_of_warning`). The exception is a restart after
less than a second: the report leaves it out, as it does a signal of zero, and the widget warns of
any restart. Such a module is reported as converted in full and has a warning nevertheless
(`warnings_of_full_conversion`).
-/

namespace BarBridge

/-- **What is warned of is noted**, except for a restart. -/
theorem exists_note_of_warning {m : CustomModule} {options : Options} {w : Warning}
    (h : w.AppliesTo m options.defaultInterval) (hrestart : w ≠ .restartUnsupported) :
    ∃ note : Note, note.AppliesTo m options := by
  cases w with
  | formatFiltered =>
    obtain ⟨-, -, hformat⟩ := Treatment.ofModule_eq_iff.mp h
    exact ⟨.format m.format, hformat, rfl⟩
  | iconsIgnored => exact ⟨.icons m.icons.length, h.2, rfl⟩
  | streamHeldBack => exact ⟨.streaming, h.2⟩
  | signalPolled seconds => exact ⟨.signalPolled seconds, h⟩
  | intervalDefaulted seconds => exact ⟨.intervalDefaulted seconds, h⟩
  | restartUnsupported => contradiction
  | nameReplaced name stem => exact ⟨.nameReplaced stem, h.1, h.2.2⟩

theorem Report.isFull_iff (m : CustomModule) (options : Options) :
    (Report.ofModule m options).isFull = true ↔ ∀ note : Note, ¬note.AppliesTo m options := by
  have hnotes : (Report.ofModule m options).isFull = (notesOf m options).isEmpty := rfl
  rw [hnotes, List.isEmpty_iff, List.eq_nil_iff_forall_not_mem]
  exact forall_congr' fun note ↦ not_congr (mem_notesOf_iff m options note)

theorem restartInterval_of_full {m : CustomModule} {options : Options}
    (hfull : ∀ note : Note, ¬note.AppliesTo m options) :
    m.restartInterval.isSome = true ↔ m.restartInterval = some 0 := by
  constructor
  · intro h
    obtain ⟨seconds, hseconds⟩ := Option.isSome_iff_exists.mp h
    have hzero : seconds = 0 := by
      by_contra hne
      exact hfull (.restart seconds) ⟨hseconds, UInt64.pos_iff_ne_zero.mpr hne⟩
    rw [hseconds, hzero]
  · intro h
    rw [h]
    rfl

/-- A restart after less than a second. -/
def RestartsAtOnce (members : List (String × Json)) : Prop :=
  ∃ n x, members.lookup "restart-interval" = some (.number n) ∧ n.toBinary64 = some x ∧
    0 ≤ x.value ∧ x.value < 1

theorem restartInterval_eq_zero_iff (name source : String) (members : List (String × Json))
    (options : Options) :
    (CustomModule.ofMembers name source members options).restartInterval = some 0 ↔
      RestartsAtOnce members := by
  have hsetting : (CustomModule.ofMembers name source members options).restartInterval =
      CustomModule.secondsSetting members "restart-interval" :=
    rfl
  have hzero : ∀ x : Binary64, 0 = capSeconds (truncate x.value).toNat ↔ x.value < 1 := by
    intro x
    rw [eq_comm, capSeconds_eq_zero_iff, Int.toNat_eq_zero, truncate_le_zero_iff]
  rw [hsetting, CustomModule.secondsSetting_eq_some_iff]
  simp only [hzero, RestartsAtOnce]

/-- **A module that is converted in full has no warnings**, unless it restarts after less than a
second; then it has the warning about restarts and no other. -/
theorem warnings_of_full_conversion (name source : String) (members : List (String × Json))
    (options : Options)
    (hfull : (Report.ofModule (.ofMembers name source members options) options).isFull = true) :
    let m := CustomModule.ofMembers name source members options
    let announced := Widget.warnings m (Command.ofModule m) options.defaultInterval
    (announced = [] ↔ ¬RestartsAtOnce members) ∧ ∀ w ∈ announced, w = .restartUnsupported := by
  intro m announced
  have hnone : ∀ note : Note, ¬note.AppliesTo m options := (Report.isFull_iff m options).mp hfull
  have honly : ∀ w ∈ announced, w = .restartUnsupported := by
    intro w hw
    by_contra hne
    have happlies := (Widget.mem_warnings_iff m options.defaultInterval w).mp hw
    obtain ⟨note, hnote⟩ := exists_note_of_warning happlies hne
    exact hnone note hnote
  have hrestart : Warning.restartUnsupported ∈ announced ↔ RestartsAtOnce members :=
    calc Warning.restartUnsupported ∈ announced
        ↔ m.restartInterval.isSome = true :=
          Widget.mem_warnings_iff m options.defaultInterval .restartUnsupported
      _ ↔ m.restartInterval = some 0 := restartInterval_of_full hnone
      _ ↔ RestartsAtOnce members := restartInterval_eq_zero_iff name source members options
  refine ⟨?_, honly⟩
  rw [← hrestart, List.eq_nil_iff_forall_not_mem]
  constructor
  · intro hnil
    exact hnil .restartUnsupported
  · intro hnot w hw
    exact hnot (honly w hw ▸ hw)

/-- A module with a command and an interval. -/
theorem warnings_of_full_conversion_clock :
    let members := [("exec", Json.string "date"), ("interval", .number (.int 5))]
    let m := CustomModule.ofMembers "clock" "config" members {}
    (Report.ofModule m {}).isFull = true ∧ ¬RestartsAtOnce members ∧
      Widget.warnings m (Command.ofModule m) 60 = [] := by
  intro members m
  have hfull : (Report.ofModule m {}).isFull = true := by decide +kernel
  have hwarnings : Widget.warnings m (Command.ofModule m) 60 = [] := by decide +kernel
  have hiff := (warnings_of_full_conversion "clock" "config" members {} hfull).1
  exact ⟨hfull, hiff.mp hwarnings, hwarnings⟩

/-- With a restart after no time at all, the report is empty and the widget has a warning. -/
theorem warned_in_full :
    let m := CustomModule.ofMembers "clock" "config"
      [("exec", .string "date"), ("interval", .number (.int 5)),
        ("restart-interval", .number (.int 0))] {}
    (Report.ofModule m {}).isFull = true ∧
      Widget.warnings m (Command.ofModule m) 60 = [.restartUnsupported] := by
  intro m
  exact ⟨by decide +kernel, by decide +kernel⟩

end BarBridge
