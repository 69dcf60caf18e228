import BarBridge.Jsonc.Commas

/-!
# Dangling commas, looking ahead

The comma scanner decides at a bracket and looks back at what it has written. A reader of a
configuration decides at the comma and looks ahead: it dangles when the next character that is not
blank closes a container. The main statement is that the two agree on every text, whatever brackets,
blanks and quotes it holds: `stripTrailingCommas_eq_dropAhead`.

## What is still undecided

While the scanner stands outside a literal, the last comma it has written may yet be deleted, and
this depends on the rest of the text alone. So what has been written counts with that comma when no
bracket comes next and without it when one does. Inside a literal nothing is undecided: the quote
that began the literal separates every earlier comma from the brackets to come.
-/

namespace BarBridge.Jsonc

/-- Whether a character ends an array or an object. -/
def closesContainer (c : Char) : Bool :=
  c == ']' || c == '}'

/-- Whether the next character that is not blank ends an array or an object. -/
def bracketAhead (text : List Char) : Bool :=
  ((text.dropWhile Text.isBlank).head?.map closesContainer).getD false

/-- A text without the commas outside literals that have a bracket ahead. -/
def dropAhead : Literal → List Char → List Char
  | _, [] => []
  | .outside, c :: cs =>
    if c = ',' ∧ bracketAhead cs = true then dropAhead .outside cs
    else c :: dropAhead (if c = '"' then .inside else .outside) cs
  | .inside, c :: cs =>
    c :: dropAhead (if c = '\\' then .escape else if c = '"' then .outside else .inside) cs
  | .escape, c :: cs => c :: dropAhead .inside cs

/-! ## One character ahead and one character back -/

@[simp] theorem bracketAhead_nil : bracketAhead [] = false := rfl

theorem bracketAhead_cons_blank {c : Char} (h : Text.isBlank c = true) (cs : List Char) :
    bracketAhead (c :: cs) = bracketAhead cs := by
  simp [bracketAhead, h]

theorem bracketAhead_cons {c : Char} (h : Text.isBlank c = false) (cs : List Char) :
    bracketAhead (c :: cs) = closesContainer c := by
  simp [bracketAhead, h]

theorem dropDangling_cons_blank {c : Char} (h : Text.isBlank c = true) (written : List Char) :
    dropDangling (c :: written) = c :: dropDangling written := by
  rw [dropDangling, dropDangling, List.dropWhile_cons_of_pos h, List.takeWhile_cons_of_pos h]
  split <;> rfl

theorem dropDangling_cons {c : Char} (hblank : Text.isBlank c = false) (hcomma : c ≠ ',')
    (written : List Char) : dropDangling (c :: written) = c :: written := by
  rw [dropDangling, List.dropWhile_cons_of_neg (by simp [hblank])]
  split
  · next h => exact absurd (List.cons.inj h).1 hcomma
  · rfl

theorem isBlank_of_closesContainer {c : Char} (h : closesContainer c = true) :
    Text.isBlank c = false := by
  simp only [closesContainer, Bool.or_eq_true, beq_iff_eq] at h
  rcases h with rfl | rfl <;> decide

/-! ## The two scanners -/

/-- What has been written, once it is decided whether its last comma stays. -/
def settled (written : List Char) : Literal → List Char → List Char
  | .outside, cs => if bracketAhead cs = true then dropDangling written else written
  | .inside, _ | .escape, _ => written

theorem settled_of_bracket {c : Char} (h : closesContainer c = true) (written cs : List Char) :
    settled (c :: dropDangling written) .outside cs = c :: settled written .outside (c :: cs) := by
  have hblank := isBlank_of_closesContainer h
  have hcomma : c ≠ ',' := by
    rintro rfl
    exact absurd h (by decide)
  rw [settled, settled, dropDangling_cons hblank hcomma, ite_self, bracketAhead_cons hblank,
    if_pos h]

theorem settled_of_comma (written cs : List Char) :
    settled (',' :: written) .outside cs =
      if bracketAhead cs = true then written else ',' :: written := rfl

theorem settled_before_comma (written cs : List Char) :
    settled written .outside (',' :: cs) = written := rfl

theorem settled_of_other {c : Char} (hclose : closesContainer c = false) (hcomma : c ≠ ',')
    (written cs : List Char) :
    settled (c :: written) (if c = '"' then .inside else .outside) cs =
      c :: settled written .outside (c :: cs) := by
  cases hblank : Text.isBlank c with
  | true =>
    -- A blank passes on what is undecided.
    have hquote : c ≠ '"' := by
      rintro rfl
      exact absurd hblank (by decide)
    rw [if_neg hquote, settled, settled, bracketAhead_cons_blank hblank,
      dropDangling_cons_blank hblank]
    split <;> rfl
  | false =>
    -- Anything else comes between the earlier comma and a bracket, so the comma stays.
    have hbefore : settled written .outside (c :: cs) = written := by
      rw [settled, bracketAhead_cons hblank, hclose]
      rfl
    rw [hbefore]
    split
    · rfl
    · rw [settled, dropDangling_cons hblank hcomma, ite_self]

theorem settled_of_quote (written : List Char) (place : Literal) (cs : List Char) :
    settled ('"' :: written) place cs = '"' :: written := by
  cases place with
  | outside => rw [settled, dropDangling_cons (by decide) (by decide), ite_self]
  | inside => rfl
  | escape => rfl

/-- **The scanner from any place on.** The induction is on the rest of the text; `settled` is what
the earlier characters amount to. -/
theorem closeCommas_eq (written : List Char) (place : Literal) (text : List Char) :
    (closeCommas written place text).reverse =
      (settled written place text).reverse ++ dropAhead place text := by
  induction text generalizing written place with
  | nil => cases place <;> simp [closeCommas, settled, dropAhead]
  | cons c cs ih =>
    cases place with
    | outside =>
      rw [closeCommas, dropAhead]
      cases hclose : closesContainer c with
      | true =>
        -- A bracket takes the comma before it, which is what it counted as all along.
        have hbracket : c = ']' ∨ c = '}' := by simpa [closesContainer] using hclose
        have hcomma : ¬(c = ',' ∧ bracketAhead cs = true) := by
          rintro ⟨rfl, -⟩
          exact absurd hclose (by decide)
        have hquote : c ≠ '"' := by
          rintro rfl
          exact absurd hclose (by decide)
        rw [if_pos hbracket, ih, settled_of_bracket hclose, if_neg hcomma, if_neg hquote]
        simp
      | false =>
        have hbracket : ¬(c = ']' ∨ c = '}') := by simpa [closesContainer] using hclose
        rw [if_neg hbracket, ih]
        by_cases hcomma : c = ','
        · -- The comma before this one stays, and this one is undecided from now on.
          subst hcomma
          rw [if_neg (show (',' : Char) ≠ '"' by decide), settled_of_comma, settled_before_comma]
          by_cases hahead : bracketAhead cs = true
          · simp [hahead]
          · simp [hahead]
        · rw [settled_of_other hclose hcomma]
          simp [hcomma]
    | inside =>
      -- The scanner goes on inside unless this is the quote that ends the literal.
      rw [closeCommas, ih, dropAhead]
      by_cases hslash : c = '\\'
      · simp [hslash, settled]
      · by_cases hquote : c = '"'
        · subst hquote
          rw [settled_of_quote]
          simp [settled]
        · simp [settled, hslash, hquote]
    | escape =>
      rw [closeCommas, ih, dropAhead]
      simp [settled]

/-- **Looking back is looking ahead.** -/
theorem stripTrailingCommas_eq_dropAhead (text : List Char) :
    stripTrailingCommas text = dropAhead .outside text := by
  have hsettled : settled [] .outside text = [] := by
    rw [settled, show dropDangling [] = [] from rfl, ite_self]
  rw [stripTrailingCommas, closeCommas_eq, hsettled]
  rfl

end BarBridge.Jsonc
