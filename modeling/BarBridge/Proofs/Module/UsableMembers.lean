import BarBridge.Proofs.Module.WellFormed
import Mathlib.Data.List.Perm.Basic

/-!
# Members that count

A module is read from an object setting by setting, and every setting has a notion of its own of the
values it can use. `settings` lists the keys with these notions; a member is usable if its key is
listed and takes its value. The module depends on the usable members alone: neither what else stands
in the object nor the order of the members enters (`ofMembers_eq_of_unusable`).

Two objects are compared by `AgreeOnUsable`, that is, by look-up of usable values. Each setting
either has an answer for each usable value, or is a function of what is found that does not
distinguish an unusable value from none. The second kind is used where the answer is no optional
value, as for intervals and icons.
-/

namespace BarBridge

/-- What the values of a setting have to be. -/
inductive SettingKind where
  | text
  /-- A text that is not empty. -/
  | filledText
  | flag
  | signal
  | length
  | seconds
  | interval
  | icons
  deriving DecidableEq, Repr

namespace SettingKind

/-- The values that can be used. -/
def Takes : SettingKind → Json → Prop
  | text, v => ∃ s, v = .string s
  | filledText, v => ∃ s, v = .string s ∧ s ≠ ""
  | flag, v => ∃ b, v = .bool b
  | signal, v => ∃ n : ℤ, v = .number (.int n) ∧ -2 ^ 63 ≤ n ∧ n < 2 ^ 63
  | length, v => ∃ n : ℤ, v = .number (.int n) ∧ 1 ≤ n ∧ n ≤ 2 ^ 32 - 1
  | seconds, v => ∃ n x, v = .number n ∧ n.toBinary64 = some x ∧ 0 ≤ x.value
  | interval, v => v.StatesInterval
  | icons, v =>
    ∃ items, v = .array items ∨
      ∃ states, v = .object states ∧ states.lookup "default" = some (.array items)

end SettingKind

namespace CustomModule

/-- The keys of a module. -/
def settings : List (String × SettingKind) :=
  [("exec", .text), ("exec-if", .text), ("interval", .interval), ("signal", .signal),
    ("format", .filledText), ("format-icons", .icons), ("return-type", .text),
    ("max-length", .length), ("min-length", .length), ("tooltip", .flag),
    ("on-click", .filledText), ("on-click-right", .filledText), ("on-click-middle", .filledText),
    ("on-scroll-up", .filledText), ("on-scroll-down", .filledText), ("escape", .flag),
    ("exec-on-event", .flag), ("restart-interval", .seconds)]

/-- A member whose key takes its value. -/
def IsUsable (m : String × Json) : Prop :=
  ∃ kind, (m.1, kind) ∈ settings ∧ kind.Takes m.2

/-- Objects in which the same usable values are found. -/
def AgreeOnUsable (members others : List (String × Json)) : Prop :=
  ∀ key kind v, (key, kind) ∈ settings → kind.Takes v →
    (others.lookup key = some v ↔ members.lookup key = some v)

end CustomModule

/-! ## Finding members -/

theorem lookup_eq_some_iff_mem {α : Type} {members : List (String × α)}
    (h : (members.map Prod.fst).Nodup) (key : String) (v : α) :
    members.lookup key = some v ↔ (key, v) ∈ members := by
  induction members with
  | nil => simp
  | cons m members ih =>
    obtain ⟨key', v'⟩ := m
    obtain ⟨hnotMem, hnodup⟩ := List.nodup_cons.mp h
    by_cases hkey : key = key'
    · subst hkey
      have hother : (key, v) ∉ members :=
        fun hmem ↦ hnotMem (List.mem_map.mpr ⟨(key, v), hmem, rfl⟩)
      simp [hother, eq_comm]
    · have hskip : ((key', v') :: members).lookup key = members.lookup key := by
        rw [List.lookup_cons, beq_eq_false_iff_ne.mpr hkey]
      rw [hskip, ih hnodup]
      simp [hkey]

namespace CustomModule

section

variable {members others dropped : List (String × Json)}

theorem agreeOnUsable_of_perm (hkeys : (members.map Prod.fst).Nodup)
    (hperm : members.Perm (others ++ dropped)) (hdropped : ∀ m ∈ dropped, ¬IsUsable m) :
    AgreeOnUsable members others := by
  intro key kind v hkind htakes
  have hkeys' : (others.map Prod.fst).Nodup := by
    have happend := ((hperm.map Prod.fst).nodup_iff).mp hkeys
    rw [List.map_append] at happend
    exact (List.nodup_append.mp happend).1
  have hnot : (key, v) ∉ dropped := fun hmem ↦ hdropped _ hmem ⟨kind, hkind, htakes⟩
  rw [lookup_eq_some_iff_mem hkeys', lookup_eq_some_iff_mem hkeys, hperm.mem_iff, List.mem_append,
    or_iff_left hnot]

/-- What does not distinguish an unusable value from none. -/
theorem AgreeOnUsable.read {α : Type} (h : AgreeOnUsable members others) {key : String}
    {kind : SettingKind} (hkind : (key, kind) ∈ settings) (g : Option Json → α)
    (hg : ∀ v, ¬kind.Takes v → g (some v) = g none) :
    g (others.lookup key) = g (members.lookup key) := by
  have hnone : ∀ o : Option Json, (∀ v, o = some v → ¬kind.Takes v) → g o = g none := by
    intro o ho
    cases o with
    | none => rfl
    | some v => exact hg v (ho v rfl)
  by_cases hfound : ∃ v, members.lookup key = some v ∧ kind.Takes v
  · obtain ⟨v, hv, htakes⟩ := hfound
    rw [hv, (h key kind v hkind htakes).mpr hv]
  · have hmembers : ∀ v, members.lookup key = some v → ¬kind.Takes v :=
      fun v hv htakes ↦ hfound ⟨v, hv, htakes⟩
    have hothers : ∀ v, others.lookup key = some v → ¬kind.Takes v :=
      fun v hv htakes ↦ hfound ⟨v, (h key kind v hkind htakes).mp hv, htakes⟩
    rw [hnone _ hmembers, hnone _ hothers]

/-! ## The settings one by one

For each key that is read it is decided that `settings` lists it with the kind of values that its
reader takes. In this way the table is checked against the readers. -/

theorem AgreeOnUsable.stringSetting_eq (h : AgreeOnUsable members others) (key : String)
    (hkind : (key, .text) ∈ settings := by decide) :
    stringSetting others key = stringSetting members key := by
  refine h.read hkind (· >>= Json.string?) fun v hv ↦ ?_
  cases v with
  | string s => exact absurd ⟨s, rfl⟩ hv
  | _ => rfl

theorem AgreeOnUsable.filledSetting_eq (h : AgreeOnUsable members others) (key : String)
    (hkind : (key, .filledText) ∈ settings := by decide) :
    filledSetting others key = filledSetting members key := by
  refine h.read hkind (fun o ↦ (o >>= Json.string?).filter (· ≠ "")) fun v hv ↦ ?_
  cases v with
  | string s =>
    have hempty : s = "" := by
      by_contra hne
      exact hv ⟨s, rfl, hne⟩
    rw [hempty]
    rfl
  | _ => rfl

theorem AgreeOnUsable.flagSetting_eq (h : AgreeOnUsable members others) (key : String)
    (hkind : (key, .flag) ∈ settings := by decide) (default : Bool) :
    flagSetting others key default = flagSetting members key default := by
  refine h.read hkind (fun o ↦ (o >>= Json.bool?).getD default) fun v hv ↦ ?_
  cases v with
  | bool b => exact absurd ⟨b, rfl⟩ hv
  | _ => rfl

theorem AgreeOnUsable.lengthSetting_eq (h : AgreeOnUsable members others) (key : String)
    (hkind : (key, .length) ∈ settings := by decide) :
    lengthSetting others key = lengthSetting members key := by
  refine Option.ext fun length ↦ ?_
  rw [lengthSetting_eq_some_iff, lengthSetting_eq_some_iff]
  refine and_congr_left fun hpos ↦ h key .length _ hkind ⟨length.toNat, rfl, ?_⟩
  have hlt := length.toNat_lt
  omega

theorem AgreeOnUsable.secondsSetting_eq (h : AgreeOnUsable members others) (key : String)
    (hkind : (key, .seconds) ∈ settings := by decide) :
    secondsSetting others key = secondsSetting members key := by
  refine Option.ext fun seconds ↦ ?_
  rw [secondsSetting_eq_some_iff, secondsSetting_eq_some_iff]
  refine exists_congr fun n ↦ exists_congr fun x ↦ and_congr_left fun hx ↦ ?_
  exact h key .seconds _ hkind ⟨n, x, rfl, hx.1, hx.2.1⟩

theorem AgreeOnUsable.signal_eq (h : AgreeOnUsable members others) :
    (setting others "signal" >>= Json.number? >>= Number.toSigned?) =
      (setting members "signal" >>= Json.number? >>= Number.toSigned?) := by
  have hkind : ("signal", .signal) ∈ settings := by decide
  refine h.read hkind (· >>= Json.number? >>= Number.toSigned?) fun v hv ↦ ?_
  cases v with
  | number n =>
    cases n with
    | int i => exact if_neg fun hrange ↦ hv ⟨i, rfl, by omega⟩
    | real x => rfl
  | _ => rfl

theorem AgreeOnUsable.resolve_eq (h : AgreeOnUsable members others) (default : UInt64) :
    Interval.resolve (setting others "interval") default =
      Interval.resolve (setting members "interval") default := by
  have hkind : ("interval", .interval) ∈ settings := by decide
  refine h.read hkind (Interval.resolve · default) fun v hv ↦ ?_
  refine Interval.resolve_of_unstated (fun w hw ↦ ?_) default
  rwa [← Option.some.inj hw]

theorem AgreeOnUsable.iconsSetting_eq (h : AgreeOnUsable members others) :
    iconsSetting (setting others "format-icons") =
      iconsSetting (setting members "format-icons") := by
  have hkind : ("format-icons", .icons) ∈ settings := by decide
  refine h.read hkind iconsSetting fun v hv ↦ ?_
  cases v with
  | array items => exact absurd ⟨items, .inl rfl⟩ hv
  | object states =>
    simp only [iconsSetting]
    split
    · next items hitems => exact absurd ⟨items, .inr ⟨states, rfl, hitems⟩⟩ hv
    · rfl
  | _ => rfl

theorem AgreeOnUsable.ofMembers_eq (h : AgreeOnUsable members others) (name source : String)
    (options : Options) :
    ofMembers name source others options = ofMembers name source members options := by
  simp only [ofMembers, h.signal_eq, h.resolve_eq, h.iconsSetting_eq, h.stringSetting_eq "exec",
    h.stringSetting_eq "exec-if", h.stringSetting_eq "return-type", h.filledSetting_eq "format",
    h.filledSetting_eq "on-click", h.filledSetting_eq "on-click-right",
    h.filledSetting_eq "on-click-middle", h.filledSetting_eq "on-scroll-up",
    h.filledSetting_eq "on-scroll-down", h.flagSetting_eq "tooltip", h.flagSetting_eq "escape",
    h.flagSetting_eq "exec-on-event", h.lengthSetting_eq "max-length",
    h.lengthSetting_eq "min-length", h.secondsSetting_eq "restart-interval"]

/-- **What is not usable is as if it were absent.** An object, in which each key is found once, is
read like any other that has its members in any order, with or without those that are not
usable. -/
theorem ofMembers_eq_of_unusable (hkeys : (members.map Prod.fst).Nodup)
    (hperm : members.Perm (others ++ dropped)) (hdropped : ∀ m ∈ dropped, ¬IsUsable m)
    (name source : String) (options : Options) :
    ofMembers name source others options = ofMembers name source members options :=
  (agreeOnUsable_of_perm hkeys hperm hdropped).ofMembers_eq name source options

end

theorem isUsable_iff (key : String) (v : Json) :
    IsUsable (key, v) ↔ ∃ kind, settings.lookup key = some kind ∧ kind.Takes v := by
  have hkeys : (settings.map Prod.fst).Nodup := by decide
  simp only [IsUsable, lookup_eq_some_iff_mem hkeys]

theorem not_isUsable {key : String} (kind : SettingKind) {v : Json} (hv : ¬kind.Takes v)
    (hkind : settings.lookup key = some kind := by decide) : ¬IsUsable (key, v) := by
  rw [isUsable_iff]
  rintro ⟨kind', hkind', htakes⟩
  obtain rfl : kind = kind' := Option.some.inj (hkind.symm.trans hkind')
  exact hv htakes

/-- A module with an unknown key, a word that is no interval, a length of zero, an empty format and
a signal that is no number. -/
theorem ofMembers_eq_of_unusable_clock :
    let dropped : List (String × Json) := [("colour", .string "red"), ("interval", .string "soon"),
      ("max-length", .number (.int 0)), ("format", .string ""), ("signal", .null)]
    let members := dropped ++ [("exec", .string "date"), ("escape", .bool true)]
    let others : List (String × Json) := [("escape", .bool true), ("exec", .string "date")]
    (members.map Prod.fst).Nodup ∧ members.Perm (others ++ dropped) ∧
      (∀ m ∈ dropped, ¬IsUsable m) ∧
      ofMembers "clock" "config" others {} = ofMembers "clock" "config" members {} := by
  intro dropped members others
  have hkeys : (members.map Prod.fst).Nodup := by decide
  have hperm : members.Perm (others ++ dropped) :=
    List.perm_append_comm.trans ((List.Perm.swap _ _ _).append_right dropped)
  have hword : ¬(Json.string "soon").StatesInterval := by
    rintro (honce | ⟨x, hgives⟩)
    · rw [Json.saysOnce_iff] at honce
      exact absurd honce (by decide +kernel)
    · have hnone : Interval.stated? (.string "soon") = none := by decide +kernel
      rw [Json.gives_iff, hnone] at hgives
      contradiction
  have hdropped : ∀ m ∈ dropped, ¬IsUsable m := by
    simp only [dropped, List.forall_mem_cons]
    refine ⟨?_, not_isUsable .interval hword, not_isUsable .length ?_,
      not_isUsable .filledText ?_, not_isUsable .signal ?_,
      List.forall_mem_nil _⟩
    · have hnone : settings.lookup "colour" = none := by decide
      rw [isUsable_iff, hnone]
      rintro ⟨kind, hkind, -⟩
      contradiction
    · simp [SettingKind.Takes]
    · simp [SettingKind.Takes]
    · simp [SettingKind.Takes]
  exact ⟨hkeys, hperm, hdropped,
    ofMembers_eq_of_unusable hkeys hperm hdropped "clock" "config" {}⟩

end CustomModule

end BarBridge
