import BarBridge.Proofs.Plugin.Fallbacks

/-!
# The commands of the bar view

The bar view has a handler for each of three clicks and for each direction of the wheel, and all of
them call the same function with a command. A handler is known by its label, the text in front of
the command. `command?` looks for the label in the finished view and reads the literal behind it;
nothing is assumed of how the view was made.

A label begins with a line feed. The values that are put into this view bring none, so a label
cannot begin within a value. It could still begin in the text in front of a value and go on into it;
that it does not is a matter of the template alone, and checked there (`leadsTo`).
-/

namespace BarBridge.Plugin

open Template Text

/-! ## Handlers -/

structure Handler where
  /-- What stands in front of the command in the view. -/
  label : String
  /-- The hole for the command in the template. -/
  hole : String
  /-- The member of a widget that has the same command. -/
  member : String
  /-- The command of a module. -/
  command : CustomModule → Option String

/-- The handlers, in the order in which they stand in the view. -/
def handlers : List Handler := [
  ⟨"\n    onClicked: root.runHandler(\"", "on_click", "leftClickExec", (·.onClick)⟩,
  ⟨"\n    onRightClicked: root.runHandler(\"", "on_click_right", "rightClickExec",
    (·.onClickRight)⟩,
  ⟨"\n    onMiddleClicked: root.runHandler(\"", "on_click_middle", "middleClickExec",
    (·.onClickMiddle)⟩,
  ⟨"\n      if (event.angleDelta.y > 0) \x7b\n        root.runHandler(\"", "on_scroll_up",
    "wheelUpExec", (·.onScrollUp)⟩,
  ⟨"\n      \x7d else if (event.angleDelta.y < 0) \x7b\n        root.runHandler(\"",
    "on_scroll_down", "wheelDownExec", (·.onScrollDown)⟩]

/-- What stands behind the first occurrence of a label. -/
def behind? (label text : List Char) : Option (List Char) :=
  text.tails.findSome? (·.dropPrefix? label)

/-- The command of the handler with a label, its literal decoded. -/
def command? (view label : String) : Option String := do
  let rest ← behind? label.toList view.toList
  let (command, _) ← readLiteral rest
  return String.ofList command

/-! ## Looking for a label

A label is looked for from the front. So it is not enough that it stands before its command: it must
begin nowhere earlier, neither in the template nor in anything that has been put into it. -/

theorem behind?_append_self (label rest : List Char) :
    behind? label (label ++ rest) = some rest := by
  have hdrop : (label ++ rest).dropPrefix? label = some rest :=
    List.dropPrefix?_append_of_beq _ (beq_self_eq_true _)
  cases htext : label ++ rest with
  | nil => rw [behind?, List.tails, List.findSome?_cons, ← htext, hdrop]
  | cons c cs => rw [behind?, List.tails, List.findSome?_cons, ← htext, hdrop]

theorem behind?_cons_of_not_prefix {label cs : List Char} {c : Char} (h : ¬label <+: c :: cs) :
    behind? label (c :: cs) = behind? label cs := by
  have hnone : (c :: cs).dropPrefix? label = none := by
    refine Option.eq_none_iff_forall_ne_some.mpr fun rest hrest ↦ ?_
    obtain ⟨label', hlabel', heq⟩ := List.dropPrefix?_eq_some_iff.mp hrest
    obtain rfl := eq_of_beq heq
    exact h ⟨rest, hlabel'.symm⟩
  rw [behind?, List.tails, List.findSome?_cons, hnone]
  rfl

/-! ## The label of a hole -/

/-- Whether a label begins nowhere in a text, whatever follows. -/
def isFree (label : List Char) : List Char → Bool
  | [] => true
  | c :: cs => decide (Apart label (c :: cs)) && isFree label cs

/-- Whether the first occurrence of a label in a text is at its end. -/
def endsIn (label : List Char) : List Char → Bool
  | [] => label.isEmpty
  | c :: cs => label == c :: cs || !label.isPrefixOf (c :: cs) && endsIn label cs

/-- Whether a label stands in front of a hole for a literal, and nowhere before. -/
def leadsTo (label : List Char) (name : String) : List Piece → Bool
  | .text cs :: .hole n :: pieces =>
    if n = name then endsIn label cs && isQuoted cs pieces
    else isFree label cs && leadsTo label name pieces
  | _ => false

theorem isFree_of_feed_notMem {label text : List Char} (hlabel : label.head? = some '\n')
    (htext : '\n' ∉ text) : isFree label text = true := by
  obtain ⟨label, rfl⟩ := List.head?_eq_some_iff.mp hlabel
  induction text with
  | nil => rfl
  | cons c cs ih =>
    rw [List.mem_cons, not_or] at htext
    obtain ⟨hc, hcs⟩ := htext
    have hapart : Apart ('\n' :: label) (c :: cs) := by
      constructor
      · intro hbegins
        exact hc (List.cons_prefix_cons.mp hbegins).1
      · intro hbegins
        exact hc (List.cons_prefix_cons.mp hbegins).1.symm
    rw [isFree, ih hcs, decide_eq_true hapart]
    rfl

theorem behind?_of_isFree {label text : List Char} (h : isFree label text = true)
    (rest : List Char) : behind? label (text ++ rest) = behind? label rest := by
  induction text with
  | nil => rfl
  | cons c cs ih =>
    rw [isFree, Bool.and_eq_true, decide_eq_true_iff] at h
    obtain ⟨hapart, hfree⟩ := h
    have hnot : ¬label <+: c :: (cs ++ rest) := by
      intro hbegins
      rcases List.prefix_or_prefix_of_prefix hbegins
        (List.prefix_append (c :: cs) rest) with hlabel | htext
      · exact hapart.1 hlabel
      · exact hapart.2 htext
    rw [List.cons_append, behind?_cons_of_not_prefix hnot, ih hfree]

theorem suffix_of_endsIn {label text : List Char} (h : endsIn label text = true) :
    label <:+ text := by
  induction text with
  | nil =>
    obtain rfl := List.isEmpty_iff.mp h
    exact List.suffix_refl []
  | cons c cs ih =>
    rw [endsIn, Bool.or_eq_true, beq_iff_eq, Bool.and_eq_true] at h
    rcases h with rfl | ⟨-, hends⟩
    · exact List.suffix_refl _
    · exact (ih hends).trans (List.suffix_cons c cs)

theorem behind?_of_endsIn {label text : List Char} (h : endsIn label text = true)
    (rest : List Char) : behind? label (text ++ rest) = some rest := by
  induction text with
  | nil =>
    obtain rfl := List.isEmpty_iff.mp h
    exact behind?_append_self [] rest
  | cons c cs ih =>
    rw [endsIn, Bool.or_eq_true, beq_iff_eq, Bool.and_eq_true, Bool.not_eq_true',
      ← Bool.not_eq_true, List.isPrefixOf_iff_prefix] at h
    rcases h with rfl | ⟨hnot, hends⟩
    · exact behind?_append_self _ rest
    · -- The label is no longer than the text, so what follows does not matter.
      have hlonger : ¬label <+: c :: (cs ++ rest) := by
        intro hlabel
        refine hnot (List.prefix_of_prefix_length_le hlabel (List.prefix_append (c :: cs) rest) ?_)
        exact ((suffix_of_endsIn hends).trans (List.suffix_cons c cs)).length_le
      rw [List.cons_append, behind?_cons_of_not_prefix hlonger, ih hends]

/-- Behind a label that leads to a hole stands the value of the hole. The induction is on the
pieces; a text and the hole behind it are passed over together. -/
theorem exists_behind? {values : List (String × Value)} {label text : List Char} {name : String}
    {pieces : List Piece} (hlabel : label.head? = some '\n')
    (hvalues : ∀ n v, .hole n ∈ pieces → values.lookup n = some v → '\n' ∉ v.write)
    (hleads : leadsTo label name pieces = true) (hfill : fill values pieces = .ok text) :
    ∃ v rest, values.lookup name = some v ∧ behind? label text = some (v.write ++ '"' :: rest) := by
  induction pieces using leadsTo.induct name generalizing text with
  | case1 cs pieces =>
    rw [leadsTo, if_pos rfl, Bool.and_eq_true] at hleads
    obtain ⟨hends, hquoted⟩ := hleads
    obtain ⟨-, chars, pieces, rfl⟩ := isQuoted_iff.mp hquoted
    obtain ⟨_, hhole, rfl⟩ := fill_eq_ok_of_text cs hfill
    obtain ⟨v, rest, hv, hrest, rfl⟩ := fill_eq_ok_of_hole hhole
    obtain ⟨rest, -, rfl⟩ := fill_eq_ok_of_text _ hrest
    exact ⟨v, chars ++ rest, hv, behind?_of_endsIn hends _⟩
  | case2 cs n pieces hname ih =>
    rw [leadsTo, if_neg hname, Bool.and_eq_true] at hleads
    obtain ⟨hfree, hleads⟩ := hleads
    obtain ⟨_, hhole, rfl⟩ := fill_eq_ok_of_text cs hfill
    obtain ⟨v, rest, hv, hrest, rfl⟩ := fill_eq_ok_of_hole hhole
    have hpasses : ∀ n v, .hole n ∈ pieces → values.lookup n = some v → '\n' ∉ v.write :=
      fun n v hn ↦ hvalues n v (List.mem_cons_of_mem _ (List.mem_cons_of_mem _ hn))
    have hfeed : '\n' ∉ v.write := hvalues n v (by simp) hv
    rw [behind?_of_isFree hfree, behind?_of_isFree (isFree_of_feed_notMem hlabel hfeed)]
    exact ih hpasses hleads hrest
  | case3 pieces hother =>
    rw [leadsTo] at hleads
    · exact nomatch hleads
    · exact hother

/-! ## The bar view of a module -/

/-- Whether every handler has a label that leads to its hole. -/
def handles (pieces : List Piece) : Bool :=
  handlers.all (fun h ↦ leadsTo h.label.toList h.hole pieces) &&
    onlyNames (barSockets.map (·.name)) pieces

set_option maxRecDepth 100000 in
theorem exists_handles : ∃ pieces, parse barView = some pieces ∧ handles pieces = true := by
  dsimp only [barView]
  apply exists_parse_ofLines fun _ ↦ handles
  · repeat (apply lineChars_cons; exact rfl)
    exact lineChars_nil
  · decide +kernel

/-- **The bar view runs the commands of the module.** -/
theorem command?_of_renders {m : CustomModule} {interval : UInt64} {text : List Char}
    (hrenders : Renders m interval barView text) {h : Handler} (hh : h ∈ handlers) :
    command? (String.ofList text) h.label = some ((h.command m).getD "") := by
  obtain ⟨pieces, hpieces, hhandles⟩ := exists_handles
  obtain ⟨_, hpieces', hfill⟩ := hrenders
  obtain rfl := Option.some.inj (hpieces.symm.trans hpieces')
  rw [handles, Bool.and_eq_true, List.all_eq_true] at hhandles
  obtain ⟨hleads, hnames⟩ := hhandles
  have hvalues : ∀ n v, .hole n ∈ pieces →
      (values m (defaults m interval) ++ functions).lookup n = some v → '\n' ∉ v.write := by
    intro n v hn hv
    have hname : n ∈ barSockets.map (·.name) := by
      simpa using List.all_eq_true.mp hnames _ hn
    obtain ⟨s, hs, rfl⟩ := List.mem_map.mp hname
    obtain ⟨slot, w, hserves⟩ := exists_serves m interval s (List.mem_append_right _ hs)
    obtain rfl := Option.some.inj (hserves.value_eq.symm.trans hv)
    exact feed_notMem_of_suits hserves.suits
  have hhandler : h.label.toList.head? = some '\n' ∧
      (values m (defaults m interval) ++ functions).lookup h.hole =
        some (literal ((h.command m).getD "")) := by
    revert h
    simp only [handlers, List.forall_mem_cons]
    exact ⟨⟨rfl, rfl⟩, ⟨rfl, rfl⟩, ⟨rfl, rfl⟩, ⟨rfl, rfl⟩, ⟨rfl, rfl⟩, List.forall_mem_nil _⟩
  obtain ⟨v, rest, hv, hbehind⟩ := exists_behind? hhandler.1 hvalues (hleads h hh) hfill
  obtain rfl := Option.some.inj (hv.symm.trans hhandler.2)
  have hread : readLiteral ((literal ((h.command m).getD "")).write ++ '"' :: rest) =
      some (((h.command m).getD "").toList, rest) :=
    readLiteral_append _ rest
  rw [command?, String.toList_ofList, hbehind]
  simp only [bind, Option.bind, hread, pure, String.ofList_toList]

end BarBridge.Plugin
