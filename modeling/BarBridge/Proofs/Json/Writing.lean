import BarBridge.Artifact
import BarBridge.Proofs.Json.Lexemes
import BarBridge.Proofs.Json.Numerals

/-!
# What is written is read back

Both forms of a value have the same lexemes, the pretty one with blanks between them. So one
argument serves both: the lexemes of a value denote tokens that make a reader deliver the value,
wherever a value may stand. The induction is on the value; what a reader has open around it stays
general, since inside a container the same must hold with one container more.

Three things a value may hold need not come back. A fraction is written with as few digits as tell
it apart and read with the rounding of the reader; of members with the same key, only one is left;
and containers may be nested too deeply. `Readable` leaves them out, and integers beyond 64 bits,
which no reader makes.
-/

namespace BarBridge.Json

open Text

/-- Whether a value comes back when it is written and read, given that `n` containers may be open
inside each other. -/
inductive Readable : Nat → Json → Prop where
  | null {n : Nat} : Readable n .null
  | bool {n : Nat} (b : Bool) : Readable n (.bool b)
  | int {n : Nat} {i : Int} (hlow : -9223372036854775808 ≤ i) (hhigh : i < UInt64.size) :
      Readable n (.number (.int i))
  | string {n : Nat} (s : String) : Readable n (.string s)
  | array {n : Nat} {items : List Json} (hitems : ∀ v ∈ items, Readable n v) :
      Readable (n + 1) (.array items)
  | object {n : Nat} {members : List (String × Json)} (hkeys : (members.map Prod.fst).Nodup)
      (hvalues : ∀ m ∈ members, Readable n m.2) : Readable (n + 1) (.object members)

/-! ## Strings

A character is written in one of three ways, and each is a spelling of it. A literal is then built
up from its end, character by character, whatever is written behind. -/

theorem hexDigit?_hexDigit : ∀ n < 16, hexDigit? (hexDigit n) = some n := by decide

theorem hexCode?_hexDigit {n : Nat} (h : n < 0x20) :
    hexCode? '0' '0' (hexDigit (n / 16)) (hexDigit (n % 16)) = some n := by
  have hzero : hexDigit? '0' = some 0 := by decide
  have hcode : 16 * (16 * (16 * 0 + 0) + n / 16) + n % 16 = n := by omega
  simp only [hexCode?, hzero, hexDigit?_hexDigit (n / 16) (by omega),
    hexDigit?_hexDigit (n % 16) (by omega)]
  exact congrArg some hcode

/-- A character is written as an escape of one letter, by its code, or as it is. -/
theorem escapeChar_cases (c : Char) :
    (∃ e, escapeChar c = ['\\', e] ∧ simpleEscape? e = some c) ∨
      (c.toNat < 0x20 ∧ escapeChar c =
        ['\\', 'u', '0', '0', hexDigit (c.toNat / 16), hexDigit (c.toNat % 16)]) ∨
      escapeChar c = [c] ∧ c ≠ '"' ∧ c ≠ '\\' ∧ 0x20 ≤ c.toNat := by
  unfold escapeChar
  split
  · next h => exact .inl ⟨'"', rfl, congrArg some h.symm⟩
  split
  · next h => exact .inl ⟨'\\', rfl, congrArg some h.symm⟩
  split
  · next hcontrol =>
    split
    · next h => exact .inl ⟨'b', rfl, congrArg some h.symm⟩
    split
    · next h => exact .inl ⟨'t', rfl, congrArg some h.symm⟩
    split
    · next h => exact .inl ⟨'n', rfl, congrArg some h.symm⟩
    split
    · next h => exact .inl ⟨'f', rfl, congrArg some h.symm⟩
    split
    · next h => exact .inl ⟨'r', rfl, congrArg some h.symm⟩
    · exact .inr (.inl ⟨hcontrol, rfl⟩)
  · next hquote hslash hcontrol => exact .inr (.inr ⟨rfl, hquote, hslash, by omega⟩)

theorem spells_escapeChar (c : Char) {body s : List Char} (h : Spells body s) :
    Spells (escapeChar c ++ body) (c :: s) := by
  rcases escapeChar_cases c with
    ⟨e, hescape, he⟩ | ⟨hcontrol, hescape⟩ | ⟨hplain, hquote, hslash, hcontrol⟩
  · rw [hescape]
    exact .escape he h
  · -- A control character is no half of a pair, so its code stands for itself.
    have hcode := Spells.code (hexCode?_hexDigit hcontrol) (by omega) (by omega) h
    rw [Char.ofNat_toNat] at hcode
    rw [hescape]
    exact hcode
  · rw [hplain]
    exact .plain hquote hslash hcontrol h

theorem spells_escape (s : List Char) : Spells (s.flatMap escapeChar) s := by
  induction s with
  | nil => exact .nil
  | cons c s ih =>
    rw [List.flatMap_cons]
    exact spells_escapeChar c ih

/-- The lexeme of a string. -/
def quoted (s : String) : Lexeme :=
  .literal (s.toList.flatMap escapeChar)

theorem denotes_quoted (s : String) : (quoted s).Denotes (.string (.ok s)) := by
  have h := Lexeme.Denotes.literal (spells_escape s.toList)
  rwa [String.ofList_toList] at h

/-! ## Blanks -/

theorem Spaced.append {ls ms : List Lexeme} {cs ds : List Char} (h : Spaced ls cs)
    (h' : Spaced ms ds) : Spaced (ls ++ ms) (cs ++ ds) := by
  induction h with
  | nil => exact h'
  | gap hc _ ih => exact .gap hc ih
  | lexeme l _ ih =>
    rw [List.append_assoc]
    exact .lexeme l ih

theorem Spaced.singleton (l : Lexeme) : Spaced [l] l.chars := by
  have h := Spaced.lexeme l .nil
  rwa [List.append_nil] at h

theorem Spaced.newline (depth : Nat) : Spaced [] (newline depth) := by
  refine .gap rfl ?_
  induction 2 * depth with
  | zero => exact .nil
  | succ n ih =>
    rw [List.replicate_succ]
    exact .gap rfl ih

theorem Spaced.append_newline {ls : List Lexeme} {cs : List Char} (h : Spaced ls cs)
    (depth : Nat) : Spaced ls (cs ++ Json.newline depth) := by
  have happend := h.append (.newline depth)
  rwa [List.append_nil] at happend

/-! ## Reading a value where one may stand

A value may begin a document, or stand behind a bracket, a comma or a colon. The reader is in a
different state each time and does the same with a value in all of them, as long as what it finds is
no closing bracket (`readValue`). -/

namespace Reader

/-- What a reader makes of tokens where a value has to begin. -/
def readValue (stack : List Frame) : List Token → Option Json
  | [] => none
  | t :: ts => (beginValue stack ⟨0, t⟩).toOption >>= (read · ts)

theorem read_value (stack : List Frame) (ts : List Token) :
    read ⟨.value, stack⟩ ts = readValue stack ts := by
  cases ts <;> rfl

theorem read_laterItem (items : List Json) (stack : List Frame) (ts : List Token) :
    read ⟨.laterItem items, stack⟩ ts = readValue (.array items :: stack) ts := by
  rcases ts with _ | ⟨t, ts⟩
  · rfl
  · cases t <;> rfl

theorem read_firstItem {stack : List Frame} {ts : List Token} {w : Json}
    (h : readValue (.array [] :: stack) ts = some w) :
    read ⟨.firstItem, stack⟩ ts = some w := by
  rcases ts with _ | ⟨t, ts⟩
  · exact absurd h (by simp [readValue])
  · cases t with
    | closeArray => exact absurd h (by simp [readValue, beginValue, Except.toOption])
    | _ => exact h

theorem read_laterKey (members : List (String × Json)) (key : String) (stack : List Frame)
    (ts : List Token) :
    read ⟨.laterKey members, stack⟩ (.string (.ok key) :: .colon :: ts) =
      readValue (.object members key :: stack) ts := by
  rw [← read_value]
  rfl

theorem read_firstKey (key : String) (stack : List Frame) (ts : List Token) :
    read ⟨.firstKey, stack⟩ (.string (.ok key) :: .colon :: ts) =
      readValue (.object [] key :: stack) ts := by
  rw [← read_value]
  rfl

theorem readValue_openArray {stack : List Frame} (h : stack.length < depthLimit)
    (ts : List Token) : readValue stack (.openArray :: ts) = read ⟨.firstItem, stack⟩ ts := by
  have henter : beginValue stack ⟨0, .openArray⟩ = .ok ⟨.firstItem, stack⟩ := if_pos h
  rw [readValue, henter]
  rfl

theorem readValue_openObject {stack : List Frame} (h : stack.length < depthLimit)
    (ts : List Token) : readValue stack (.openObject :: ts) = read ⟨.firstKey, stack⟩ ts := by
  have henter : beginValue stack ⟨0, .openObject⟩ = .ok ⟨.firstKey, stack⟩ := if_pos h
  rw [readValue, henter]
  rfl

end Reader

/-- What is known of a value that is written: the lexemes that both forms consist of, and what a
reader makes of the tokens they denote. -/
structure Written (n : Nat) (v : Json) (ls : List Lexeme) (ts : List Token) : Prop where
  denote : Denote ls ts
  compact : Spaced ls v.compact
  pretty : ∀ depth, Spaced ls (v.prettyAt depth)
  read : ∀ (stack : List Frame) (rest : List Token) (w : Json), stack.length + n ≤ depthLimit →
    (Reader.deliver v stack).read rest = some w → Reader.readValue stack (ts ++ rest) = some w

/-- The same for the items of an array behind the first. -/
structure WrittenItems (n : Nat) (vs : List Json) (ls : List Lexeme) (ts : List Token) : Prop where
  denote : Denote ls ts
  compact : Spaced ls (compactItems vs)
  pretty : ∀ depth, Spaced ls (prettyItems depth vs)
  read : ∀ (items : List Json) (stack : List Frame) (rest : List Token) (w : Json),
    stack.length + 1 + n ≤ depthLimit →
    Reader.read ⟨.itemEnd (vs.reverse ++ items), stack⟩ rest = some w →
    Reader.read ⟨.itemEnd items, stack⟩ (ts ++ rest) = some w

/-- The same for the members of an object behind the first. -/
structure WrittenMembers (n : Nat) (ms : List (String × Json)) (ls : List Lexeme)
    (ts : List Token) : Prop where
  denote : Denote ls ts
  compact : Spaced ls (compactMembers ms)
  pretty : ∀ depth, Spaced ls (prettyMembers depth ms)
  read : ∀ (members : List (String × Json)) (stack : List Frame) (rest : List Token) (w : Json),
    stack.length + 1 + n ≤ depthLimit →
    ((members ++ ms).map Prod.fst).Nodup →
    Reader.read ⟨.memberEnd (members ++ ms), stack⟩ rest = some w →
    Reader.read ⟨.memberEnd members, stack⟩ (ts ++ rest) = some w

/-! ### Scalars -/

theorem written_word {n : Nat} {v : Json} {w : List Char} (hw : SpellsScalar w v)
    (hcompact : v.compact = w) (hpretty : ∀ depth, v.prettyAt depth = w) :
    Written n v [.word w] [.scalar (.ok v)] where
  denote := .cons (.word hw) .nil
  compact := by
    rw [hcompact]
    exact .singleton (.word w)
  pretty := by
    intro depth
    rw [hpretty]
    exact .singleton (.word w)
  read := fun _ _ _ _ h ↦ h

theorem written_string (n : Nat) (s : String) :
    Written n (.string s) [quoted s] [.string (.ok s)] where
  denote := .cons (denotes_quoted s) .nil
  compact := by
    rw [Json.compact]
    exact .singleton (quoted s)
  pretty := by
    intro depth
    rw [prettyAt]
    exact .singleton (quoted s)
  read := fun _ _ _ _ h ↦ h

/-! ### Containers

An item behind the first comes with the comma before it. So these items are a list of their own,
with an induction of its own inside the one on the value, and so are the members of an object. -/

theorem exists_writtenItems {n : Nat} {vs : List Json}
    (h : ∀ v ∈ vs, ∃ ls ts, Written n v ls ts) : ∃ ls ts, WrittenItems n vs ls ts := by
  induction vs with
  | nil =>
    refine ⟨[], [], .nil, .nil, fun _ ↦ .nil, ?_⟩
    intro items stack rest w _ hread
    exact hread
  | cons v vs ih =>
    obtain ⟨ls, ts, hv⟩ := h v List.mem_cons_self
    obtain ⟨ls', ts', hvs⟩ := ih fun u hu ↦ h u (List.mem_cons_of_mem v hu)
    refine ⟨.mark ',' :: (ls ++ ls'), .comma :: (ts ++ ts'), ?_, ?_, ?_, ?_⟩
    · exact .cons (.mark rfl) (List.rel_append hv.denote hvs.denote)
    · rw [compactItems]
      exact (Spaced.lexeme (.mark ',') hv.compact).append hvs.compact
    · intro depth
      rw [prettyItems]
      exact ((Spaced.lexeme (.mark ',') (.newline depth)).append (hv.pretty depth)).append
        (hvs.pretty depth)
    · -- What the reader makes of the items behind is known once this one is delivered.
      intro items stack rest w hdepth hread
      have hdeliver : Reader.read ⟨.itemEnd (v :: items), stack⟩ (ts' ++ rest) = some w := by
        refine hvs.read (v :: items) stack rest w hdepth ?_
        rwa [List.reverse_cons, List.append_assoc] at hread
      have hvalue := hv.read (.array items :: stack) (ts' ++ rest) w hdepth hdeliver
      rw [← Reader.read_laterItem, ← List.append_assoc] at hvalue
      exact hvalue

theorem exists_writtenMembers {n : Nat} {ms : List (String × Json)}
    (h : ∀ m ∈ ms, ∃ ls ts, Written n m.2 ls ts) : ∃ ls ts, WrittenMembers n ms ls ts := by
  induction ms with
  | nil =>
    refine ⟨[], [], .nil, .nil, fun _ ↦ .nil, ?_⟩
    intro members stack rest w _ _ hread
    rwa [List.append_nil] at hread
  | cons m ms ih =>
    obtain ⟨ls, ts, hv⟩ := h m List.mem_cons_self
    obtain ⟨ls', ts', hms⟩ := ih fun u hu ↦ h u (List.mem_cons_of_mem m hu)
    refine ⟨.mark ',' :: quoted m.1 :: .mark ':' :: (ls ++ ls'),
      .comma :: .string (.ok m.1) :: .colon :: (ts ++ ts'), ?_, ?_, ?_, ?_⟩
    · exact .cons (.mark rfl) (.cons (denotes_quoted m.1)
        (.cons (.mark rfl) (List.rel_append hv.denote hms.denote)))
    · rw [compactMembers]
      exact ((Spaced.lexeme (.mark ',') (.singleton (quoted m.1))).append
        (.lexeme (.mark ':') hv.compact)).append hms.compact
    · intro depth
      rw [prettyMembers]
      have hvalue : Spaced (.mark ':' :: ls) (':' :: ' ' :: prettyAt depth m.2) :=
        .lexeme (.mark ':') (.gap rfl (hv.pretty depth))
      exact (((Spaced.lexeme (.mark ',') (.newline depth)).append
        (.singleton (quoted m.1))).append hvalue).append (hms.pretty depth)
    · -- A key that is new is put at the end, so the members keep their order.
      intro members stack rest w hdepth hkeys hread
      have hnew : m.1 ∉ members.map Prod.fst := by
        rw [List.map_append, List.nodup_append] at hkeys
        intro hmem
        exact hkeys.2.2 m.1 hmem m.1 List.mem_cons_self rfl
      have hdeliver : Reader.read ⟨.memberEnd (put m.1 m.2 members), stack⟩ (ts' ++ rest) =
          some w := by
        rw [put_of_notMem m.2 hnew]
        refine hms.read _ stack rest w hdepth ?_ ?_
        · rwa [List.append_assoc]
        · rwa [List.append_assoc]
      have hvalue := hv.read (.object members m.1 :: stack) (ts' ++ rest) w hdepth hdeliver
      rw [← Reader.read_laterKey, ← List.append_assoc] at hvalue
      exact hvalue

theorem written_array_nil (n : Nat) :
    Written (n + 1) (.array []) [.mark '[', .mark ']'] [.openArray, .closeArray] where
  denote := .cons (.mark rfl) (.cons (.mark rfl) .nil)
  compact := .lexeme (.mark '[') (.singleton (.mark ']'))
  pretty := fun _ ↦ .lexeme (.mark '[') (.singleton (.mark ']'))
  read := by
    intro stack rest w hdepth hread
    rw [List.cons_append, Reader.readValue_openArray (by omega)]
    exact hread

theorem written_array_cons {n : Nat} {v : Json} {vs : List Json} {ls ls' : List Lexeme}
    {ts ts' : List Token} (hv : Written n v ls ts) (hvs : WrittenItems n vs ls' ts') :
    Written (n + 1) (.array (v :: vs)) (.mark '[' :: (ls ++ ls' ++ [.mark ']']))
      (.openArray :: (ts ++ ts' ++ [.closeArray])) where
  denote := .cons (.mark rfl)
    (List.rel_append (List.rel_append hv.denote hvs.denote) (.cons (.mark rfl) .nil))
  compact := by
    rw [Json.compact]
    have hitems := (Spaced.lexeme (.mark '[') hv.compact).append hvs.compact
    exact hitems.append (.singleton (.mark ']'))
  pretty := by
    intro depth
    rw [prettyAt]
    have hitems := ((Spaced.lexeme (.mark '[') (.newline (depth + 1))).append
      (hv.pretty (depth + 1))).append (hvs.pretty (depth + 1))
    exact (hitems.append_newline depth).append (.singleton (.mark ']'))
  read := by
    -- Inside the brackets one more container is open, which is what the depth leaves room for.
    intro stack rest w hdepth hread
    have hdeliver : Reader.read ⟨.itemEnd [v], stack⟩ (ts' ++ .closeArray :: rest) = some w := by
      refine hvs.read [v] stack (.closeArray :: rest) w (by omega) ?_
      rw [← hread, ← List.reverse_reverse (v :: vs), List.reverse_cons]
      rfl
    have hvalue := hv.read (.array [] :: stack) (ts' ++ .closeArray :: rest) w
      (by rw [List.length_cons]; omega) hdeliver
    rw [List.cons_append, Reader.readValue_openArray (by omega)]
    refine Reader.read_firstItem ?_
    rwa [List.append_assoc, List.append_assoc]

theorem written_object_nil (n : Nat) :
    Written (n + 1) (.object []) [.mark '{', .mark '}'] [.openObject, .closeObject] where
  denote := .cons (.mark rfl) (.cons (.mark rfl) .nil)
  compact := .lexeme (.mark '{') (.singleton (.mark '}'))
  pretty := fun _ ↦ .lexeme (.mark '{') (.singleton (.mark '}'))
  read := by
    intro stack rest w hdepth hread
    rw [List.cons_append, Reader.readValue_openObject (by omega)]
    exact hread

theorem written_object_cons {n : Nat} {m : String × Json} {ms : List (String × Json)}
    {ls ls' : List Lexeme} {ts ts' : List Token} (hkeys : ((m :: ms).map Prod.fst).Nodup)
    (hv : Written n m.2 ls ts) (hms : WrittenMembers n ms ls' ts') :
    Written (n + 1) (.object (m :: ms))
      (.mark '{' :: quoted m.1 :: .mark ':' :: (ls ++ ls' ++ [.mark '}']))
      (.openObject :: .string (.ok m.1) :: .colon :: (ts ++ ts' ++ [.closeObject])) where
  denote := .cons (.mark rfl) (.cons (denotes_quoted m.1) (.cons (.mark rfl)
    (List.rel_append (List.rel_append hv.denote hms.denote) (.cons (.mark rfl) .nil))))
  compact := by
    rw [Json.compact]
    have hmembers := ((Spaced.lexeme (.mark '{') (.singleton (quoted m.1))).append
      (.lexeme (.mark ':') hv.compact)).append hms.compact
    exact hmembers.append (.singleton (.mark '}'))
  pretty := by
    intro depth
    rw [prettyAt]
    have hvalue : Spaced (.mark ':' :: ls) (':' :: ' ' :: prettyAt (depth + 1) m.2) :=
      .lexeme (.mark ':') (.gap rfl (hv.pretty (depth + 1)))
    have hmembers := (((Spaced.lexeme (.mark '{') (.newline (depth + 1))).append
      (.singleton (quoted m.1))).append hvalue).append (hms.pretty (depth + 1))
    exact (hmembers.append_newline depth).append (.singleton (.mark '}'))
  read := by
    intro stack rest w hdepth hread
    have hdeliver : Reader.read ⟨.memberEnd [m], stack⟩ (ts' ++ .closeObject :: rest) = some w :=
      hms.read [m] stack (.closeObject :: rest) w (by omega) hkeys hread
    have hvalue := hv.read (.object [] m.1 :: stack) (ts' ++ .closeObject :: rest) w
      (by rw [List.length_cons]; omega) hdeliver
    rw [List.cons_append, Reader.readValue_openObject (by omega), List.cons_append,
      List.cons_append, Reader.read_firstKey]
    rwa [List.append_assoc, List.append_assoc]

theorem exists_written {n : Nat} {v : Json} (h : Readable n v) : ∃ ls ts, Written n v ls ts := by
  induction h with
  | null => exact ⟨_, _, written_word .null rfl fun _ ↦ rfl⟩
  | bool b =>
    cases b with
    | false => exact ⟨_, _, written_word .false rfl fun _ ↦ rfl⟩
    | true => exact ⟨_, _, written_word .true rfl fun _ ↦ rfl⟩
  | int hlow hhigh =>
    exact ⟨_, _, written_word (spellsScalar_int hlow hhigh) (by rw [Json.compact])
      fun depth ↦ by rw [prettyAt]⟩
  | string s => exact ⟨_, _, written_string _ s⟩
  | @array n items _ ih =>
    rcases items with _ | ⟨v, vs⟩
    · exact ⟨_, _, written_array_nil n⟩
    · obtain ⟨ls, ts, hv⟩ := ih v List.mem_cons_self
      obtain ⟨ls', ts', hvs⟩ := exists_writtenItems fun u hu ↦ ih u (List.mem_cons_of_mem v hu)
      exact ⟨_, _, written_array_cons hv hvs⟩
  | @object n members hkeys _ ih =>
    rcases members with _ | ⟨m, ms⟩
    · exact ⟨_, _, written_object_nil n⟩
    · obtain ⟨ls, ts, hv⟩ := ih m List.mem_cons_self
      obtain ⟨ls', ts', hms⟩ := exists_writtenMembers fun u hu ↦ ih u (List.mem_cons_of_mem m hu)
      exact ⟨_, _, written_object_cons hkeys hv hms⟩

/-! ## Documents -/

theorem parse_of_spaced {v : Json} {ls : List Lexeme} {ts : List Token} {text : List Char}
    (hspaced : Spaced ls text) (h : Written depthLimit v ls ts) : parse text = .ok v := by
  have hread : Reader.initial.read ts = some v := by
    have hvalue := h.read [] [] v (Nat.le_of_eq (Nat.zero_add _)) rfl
    rw [List.append_nil, ← Reader.read_value] at hvalue
    exact hvalue
  have htokens : tokenValues text = ts :=
    run_of_spaced hspaced h.denote (Reader.isChain_mayPrecede hread) 0
  rw [parse_eq_ok_iff, htokens, hread]

/-- **The compact form is read back.** -/
theorem parse_compact {v : Json} (h : Readable depthLimit v) : parse v.compact = .ok v := by
  obtain ⟨ls, ts, hv⟩ := exists_written h
  exact parse_of_spaced hv.compact hv

/-- What a file holds is read back: a line feed may end the pretty form. -/
theorem parse_document {v : Json} (h : Readable depthLimit v) :
    parse (Artifact.document v).toList = .ok v := by
  obtain ⟨ls, ts, hv⟩ := exists_written h
  rw [Artifact.document, String.toList_ofList]
  exact parse_of_spaced ((hv.pretty 0).append_newline 0) hv

end BarBridge.Json
