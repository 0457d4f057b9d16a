import GameExport.Proofs.Json.Tokens

/-! # Reading back what was written

A written document is tokens with blanks between them, however the lines are laid out. Main
statement: reading a layout gives the source of the document that was written. The compact and the
indented form are both layouts.
-/

namespace GameExport.Json

/-! ## Layouts -/

/-- Where blanks stand in a written document: at the start of each line, which depends on the
level, and behind the name of a field. -/
structure Layout where
  line : Nat → List Char
  gap : List Char
  blankLine : ∀ level, ∀ char ∈ line level, isBlank char = true
  blankGap : ∀ char ∈ gap, isBlank char = true

mutual
def write (layout : Layout) : (level : Nat) → Json → List Char
  | _, .null => ['n', 'u', 'l', 'l']
  | _, .bool true => ['t', 'r', 'u', 'e']
  | _, .bool false => ['f', 'a', 'l', 's', 'e']
  | _, .number value => value.chars
  | _, .string value => quote value
  | _, .array [] => ['[', ']']
  | level, .array (item :: rest) =>
      '[' :: (layout.line (level + 1) ++ (write layout (level + 1) item ++
        writeItems layout (level + 1) rest (layout.line level ++ [']'])))
  | _, .object [] => ['\x7b', '\x7d']
  | level, .object ((name, value) :: rest) =>
      '\x7b' :: (layout.line (level + 1) ++ (quote name ++ ':' :: (layout.gap ++
        (write layout (level + 1) value ++
          writeFields layout (level + 1) rest (layout.line level ++ ['\x7d'])))))

def writeItems (layout : Layout) : (level : Nat) → List Json → List Char → List Char
  | _, [], after => after
  | level, item :: rest, after =>
      ',' :: (layout.line level ++ (write layout level item ++ writeItems layout level rest after))

def writeFields (layout : Layout) : (level : Nat) → List (String × Json) → List Char → List Char
  | _, [], after => after
  | level, (name, value) :: rest, after =>
      ',' :: (layout.line level ++ (quote name ++ ':' :: (layout.gap ++
        (write layout level value ++ writeFields layout level rest after))))
end

def compactLayout : Layout where
  line _ := []
  gap := []
  blankLine := by simp
  blankGap := by simp

def prettyLayout : Layout where
  line := newLine
  gap := [' ']
  blankLine level char member := by
    rcases List.mem_cons.mp member with rfl | member
    · rfl
    · rw [(List.mem_replicate.mp member).2]
      rfl
  blankGap := by simp [isBlank]

@[simp] theorem compactLayout_line (level : Nat) : compactLayout.line level = [] := rfl

@[simp] theorem compactLayout_gap : compactLayout.gap = [] := rfl

@[simp] theorem prettyLayout_line (level : Nat) : prettyLayout.line level = newLine level := rfl

@[simp] theorem prettyLayout_gap : prettyLayout.gap = [' '] := rfl

mutual
theorem compact_eq_write : ∀ (value : Json) (level : Nat),
    compact value = write compactLayout level value
  | .null, _ => rfl
  | .bool true, _ => rfl
  | .bool false, _ => rfl
  | .number _, _ => rfl
  | .string _, _ => rfl
  | .array [], _ => rfl
  | .array (item :: rest), level => by
      simp [compact, write, compact_eq_write item (level + 1),
        compactItems_append rest (level + 1) [']']]
  | .object [], _ => rfl
  | .object ((name, value) :: rest), level => by
      simp [compact, write, compact_eq_write value (level + 1),
        compactFields_append rest (level + 1) ['\x7d']]

theorem compactItems_append : ∀ (items : List Json) (level : Nat) (after : List Char),
    compactItems items ++ after = writeItems compactLayout level items after
  | [], _, _ => rfl
  | item :: rest, level, after => by
      simp [compactItems, writeItems, compact_eq_write item level,
        ← compactItems_append rest level after]

theorem compactFields_append : ∀ (fields : List (String × Json)) (level : Nat) (after : List Char),
    compactFields fields ++ after = writeFields compactLayout level fields after
  | [], _, _ => rfl
  | (name, value) :: rest, level, after => by
      simp [compactFields, writeFields, compact_eq_write value level,
        ← compactFields_append rest level after]
end

mutual
theorem pretty_eq_write : ∀ (value : Json) (level : Nat),
    pretty level value = write prettyLayout level value
  | .null, _ => rfl
  | .bool true, _ => rfl
  | .bool false, _ => rfl
  | .number _, _ => rfl
  | .string _, _ => rfl
  | .array [], _ => rfl
  | .array (item :: rest), level => by
      simp [pretty, write, pretty_eq_write item (level + 1),
        ← prettyItems_append rest (level + 1)]
  | .object [], _ => rfl
  | .object ((name, value) :: rest), level => by
      simp [pretty, write, pretty_eq_write value (level + 1),
        ← prettyFields_append rest (level + 1)]

theorem prettyItems_append : ∀ (items : List Json) (level : Nat) (after : List Char),
    prettyItems level items ++ after = writeItems prettyLayout level items after
  | [], _, _ => rfl
  | item :: rest, level, after => by
      simp [prettyItems, writeItems, pretty_eq_write item level,
        ← prettyItems_append rest level after]

theorem prettyFields_append : ∀ (fields : List (String × Json)) (level : Nat) (after : List Char),
    prettyFields level fields ++ after = writeFields prettyLayout level fields after
  | [], _, _ => rfl
  | (name, value) :: rest, level, after => by
      simp [prettyFields, writeFields, pretty_eq_write value level,
        ← prettyFields_append rest level after]
end

/-! ## Sources -/

def Number.literal : Number → Literal
  | .natural value => literalOf false value.toNat
  | .negative below => literalOf true (below.val + 1)
  | .float _ => literalOf false 0

mutual
def source : Json → Source
  | .null => .null
  | .bool value => .bool value
  | .number value => .number value.literal
  | .string value => .string (symbolsOf value)
  | .array items => .array (sourceItems items)
  | .object fields => .object (sourceFields fields)

def sourceItems : List Json → List Source
  | [] => []
  | item :: rest => source item :: sourceItems rest

def sourceFields : List (String × Json) → List (List Symbol × Source)
  | [] => []
  | (name, value) :: rest => (symbolsOf name, source value) :: sourceFields rest
end

mutual
def whole : Json → Bool
  | .number (.float _) => false
  | .array items => wholeItems items
  | .object fields => wholeFields fields
  | _ => true

def wholeItems : List Json → Bool
  | [] => true
  | item :: rest => whole item && wholeItems rest

def wholeFields : List (String × Json) → Bool
  | [] => true
  | (_, value) :: rest => whole value && wholeFields rest
end

mutual
def size : Json → Nat
  | .array items => 1 + sizeItems items
  | .object fields => 1 + sizeFields fields
  | _ => 1

def sizeItems : List Json → Nat
  | [] => 0
  | item :: rest => 1 + size item + sizeItems rest

def sizeFields : List (String × Json) → Nat
  | [] => 0
  | (_, value) :: rest => 1 + size value + sizeFields rest
end

/-! ## Blanks and starts -/

theorem skipBlank_append {blanks : List Char} (blank : ∀ char ∈ blanks, isBlank char = true)
    (text : List Char) : skipBlank (blanks ++ text) = skipBlank text := by
  induction blanks with
  | nil => rfl
  | cons char rest induction =>
      have first := blank char List.mem_cons_self
      have others := induction fun other member => blank other (List.mem_cons_of_mem _ member)
      simpa [skipBlank, first] using others

theorem skipBlank_of_head {char : Char} (visible : isBlank char = false) (rest : List Char) :
    skipBlank (char :: rest) = char :: rest := by
  simp [skipBlank, visible]

theorem readValue_append {blanks : List Char} (blank : ∀ char ∈ blanks, isBlank char = true)
    (steps : Nat) (text : List Char) :
    readValue steps (blanks ++ text) = readValue steps text := by
  cases steps with
  | zero => rfl
  | succ steps => simp only [readValue, skipBlank_append blank]

theorem readFields_append {blanks : List Char} (blank : ∀ char ∈ blanks, isBlank char = true)
    (steps : Nat) (text : List Char) :
    readFields steps (blanks ++ text) = readFields steps text := by
  cases steps with
  | zero => rfl
  | succ steps => simp only [readFields, skipBlank_append blank]

theorem readItems_append {blanks : List Char} (blank : ∀ char ∈ blanks, isBlank char = true)
    (steps : Nat) (text : List Char) :
    readItems steps (blanks ++ text) = readItems steps text := by
  cases steps with
  | zero => rfl
  | succ steps => simp only [readItems, readValue_append blank]

theorem chars_head {value : Number} (exact : whole (.number value) = true) :
    ∃ char rest, value.chars = char :: rest ∧ (char = '-' ∨ ('0' ≤ char ∧ char ≤ '9')) := by
  cases value with
  | natural value =>
      cases digits : Nat.toDigits 10 value.toNat with
      | nil => exact absurd digits Nat.toDigits_ne_nil
      | cons char rest =>
          exact ⟨char, rest, digits, .inr (isDigit_of_mem_toDigits (digits ▸ List.mem_cons_self))⟩
  | negative below => exact ⟨'-', _, rfl, .inl rfl⟩
  | float value => simp [whole] at exact

theorem write_head (layout : Layout) (level : Nat) {value : Json} (exact : whole value = true) :
    ∃ char rest, write layout level value = char :: rest ∧ isBlank char = false ∧ char ≠ ']' := by
  cases value with
  | null => exact ⟨'n', _, rfl, rfl, by decide⟩
  | bool value => cases value <;> exact ⟨_, _, rfl, rfl, by decide⟩
  | number value =>
      obtain ⟨char, rest, shape, start⟩ := chars_head exact
      refine ⟨char, rest, shape, ?_⟩
      rcases start with rfl | isDigit
      · exact ⟨rfl, by decide⟩
      · have visible : ∀ other : Char, other < '0' ∨ '9' < other → char ≠ other := by
          rintro other outside rfl
          rcases outside with below | above
          · exact absurd isDigit.1 (Char.not_le.mpr below)
          · exact absurd isDigit.2 (Char.not_le.mpr above)
        have noSpace := visible ' ' (by decide)
        have noLine := visible '\n' (by decide)
        have noTab := visible '\t' (by decide)
        have noReturn := visible '\r' (by decide)
        exact ⟨by simp [isBlank, noSpace, noLine, noTab, noReturn], visible ']' (by decide)⟩
  | string value => exact ⟨'"', _, rfl, rfl, by decide⟩
  | array items => cases items <;> exact ⟨'[', _, rfl, rfl, by decide⟩
  | object fields =>
      cases fields with
      | nil => exact ⟨'\x7b', _, rfl, rfl, by decide⟩
      | cons field rest => exact ⟨'\x7b', _, rfl, rfl, by decide⟩

/-! ## Reading -/

theorem readValue_number {text : List Char} {literal : Literal} {rest : List Char} {char : Char}
    {others : List Char} (shape : text = char :: others)
    (start : char = '-' ∨ ('0' ≤ char ∧ char ≤ '9'))
    (read : readLiteral? text = some (literal, rest)) (steps : Nat) :
    readValue (steps + 1) text = some (.number literal, rest) := by
  subst shape
  have visible : ∀ other : Char, other < '-' ∨ '9' < other → char ≠ other := by
    rintro other outside rfl
    rcases start with rfl | isDigit
    · exact absurd outside (by decide)
    · rcases outside with below | above
      · have atLeast : '-' ≤ char := Char.le_trans (by decide) isDigit.1
        exact absurd below (Char.not_lt.mpr atLeast)
      · exact absurd isDigit.2 (Char.not_le.mpr above)
  have visibleHead : isBlank char = false := by
    simp [isBlank, visible ' ' (by decide), visible '\n' (by decide), visible '\t' (by decide),
      visible '\r' (by decide)]
  simp only [readValue, skipBlank_of_head visibleHead]
  split
  · rename_i same
    exact absurd (List.cons.inj same).1 (visible 'n' (by decide))
  · rename_i same
    exact absurd (List.cons.inj same).1 (visible 't' (by decide))
  · rename_i same
    exact absurd (List.cons.inj same).1 (visible 'f' (by decide))
  · rename_i same
    exact absurd (List.cons.inj same).1 (visible '"' (by decide))
  · rename_i same
    exact absurd (List.cons.inj same).1 (visible '[' (by decide))
  · rename_i same
    exact absurd (List.cons.inj same).1 (visible '\x7b' (by decide))
  · rw [read]
    rfl

theorem readValue_array {blanks : List Char} (blank : ∀ char ∈ blanks, isBlank char = true)
    {char : Char} (visible : isBlank char = false) (noBracket : char ≠ ']') (steps : Nat)
    (text : List Char) :
    readValue (steps + 1) ('[' :: (blanks ++ char :: text)) =
      (readItems steps (char :: text)).bind fun found => some (.array found.1, found.2) := by
  have start : isBlank '[' = false := rfl
  simp only [readValue, skipBlank_of_head start, skipBlank_append blank,
    skipBlank_of_head visible]
  split
  · rename_i same
    exact absurd (List.cons.inj same).1 noBracket
  · rfl

theorem readValue_object {blanks : List Char} (blank : ∀ char ∈ blanks, isBlank char = true)
    (steps : Nat) (text : List Char) :
    readValue (steps + 1) ('\x7b' :: (blanks ++ '"' :: text)) =
      (readFields steps ('"' :: text)).bind fun found => some (.object found.1, found.2) := by
  have start : isBlank '\x7b' = false := rfl
  have visible : isBlank '"' = false := rfl
  simp only [readValue, skipBlank_of_head start, skipBlank_append blank,
    skipBlank_of_head visible]
  rfl

theorem readLiteral?_chars {value : Number} (exact : whole (.number value) = true)
    {rest : List Char} (ends : EndsNumber rest) :
    readLiteral? (value.chars ++ rest) = some (value.literal, rest) := by
  cases value with
  | natural value => exact readLiteral?_toDigits value.toNat ends
  | negative below => exact readLiteral?_negative (below.val + 1) ends
  | float value => simp [whole] at exact

theorem endsNumber_append {blanks : List Char} (blank : ∀ char ∈ blanks, isBlank char = true)
    {mark : Char} (isMark : mark ∈ [',', ']', '\x7d']) (rest : List Char) :
    EndsNumber (blanks ++ mark :: rest) := by
  have marks : ∀ mark ∈ [',', ']', '\x7d', ' ', '\n', '\t', '\r'],
      ¬ ('0' ≤ mark ∧ mark ≤ '9') ∧ mark ≠ '.' ∧ mark ≠ 'e' ∧ mark ≠ 'E' := by simp
  intro char first
  cases blanks with
  | nil =>
      have same : mark = char := by simpa using first
      refine marks char (same ▸ ?_)
      simp only [List.mem_cons, List.not_mem_nil, or_false] at isMark ⊢
      rcases isMark with rfl | rfl | rfl <;> simp
  | cons other others =>
      have same : other = char := by simpa using first
      have isBlank := blank other List.mem_cons_self
      refine marks char (same ▸ ?_)
      simp only [Json.isBlank, Bool.or_eq_true, beq_iff_eq, or_assoc] at isBlank
      rcases isBlank with rfl | rfl | rfl | rfl <;> simp

theorem writeItems_append (layout : Layout) (level : Nat) (items : List Json)
    (after rest : List Char) :
    writeItems layout level items after ++ rest =
      writeItems layout level items (after ++ rest) := by
  induction items with
  | nil => rfl
  | cons item others induction => simp [writeItems, induction]

theorem writeFields_append (layout : Layout) (level : Nat) (fields : List (String × Json))
    (after rest : List Char) :
    writeFields layout level fields after ++ rest =
      writeFields layout level fields (after ++ rest) := by
  induction fields with
  | nil => rfl
  | cons field others induction => simp [writeFields, induction]

mutual
/-- A written document is read back as its source. -/
theorem readValue_write (layout : Layout) : ∀ (value : Json) (level steps : Nat)
    (rest : List Char), whole value = true → size value ≤ steps → EndsNumber rest →
      readValue steps (write layout level value ++ rest) = some (source value, rest)
  | value, _, 0, _, _, enough, _ => by cases value <;> simp [size] at enough
  | .null, _, steps + 1, rest, _, _, _ => by simp [write, source, readValue, skipBlank, isBlank]
  | .bool true, _, steps + 1, rest, _, _, _ => by
      simp [write, source, readValue, skipBlank, isBlank]
  | .bool false, _, steps + 1, rest, _, _, _ => by
      simp [write, source, readValue, skipBlank, isBlank]
  | .number value, level, steps + 1, rest, exact, _, ends => by
      obtain ⟨char, others, shape, start⟩ := chars_head exact
      have starts : write layout level (.number value) ++ rest = char :: (others ++ rest) := by
        rw [write, shape, List.cons_append]
      exact readValue_number starts start (readLiteral?_chars exact ends) steps
  | .string value, _, steps + 1, rest, _, _, _ => by
      simp [write, source, quote, readValue, skipBlank, isBlank, readSymbols_chars, symbolsOf]
  | .array [], _, steps + 1, rest, _, _, _ => by
      simp [write, source, sourceItems, readValue, skipBlank, isBlank]
  | .array (item :: others), level, steps + 1, rest, exact, enough, _ => by
      have items := readItems_write layout (item :: others) (level + 1) steps
        (layout.line level) rest exact (by simp only [size] at enough; omega)
        (layout.blankLine level)
      have itemExact : whole item = true := by
        simp only [whole, wholeItems, Bool.and_eq_true] at exact
        exact exact.1
      obtain ⟨char, text, shape, visible, noBracket⟩ := write_head layout (level + 1) itemExact
      simp only [write, List.cons_append, List.append_assoc, writeItems_append, List.nil_append]
      simp only [shape, List.cons_append] at items ⊢
      rw [readValue_array (layout.blankLine _) visible noBracket, items]
      rfl
  | .object [], _, steps + 1, rest, _, _, _ => by
      simp [write, source, sourceFields, readValue, skipBlank, isBlank]
  | .object ((name, value) :: others), level, steps + 1, rest, exact, enough, _ => by
      have fields := readFields_write layout ((name, value) :: others) (level + 1) steps
        (layout.line level) rest exact (by simp only [size] at enough; omega)
        (layout.blankLine level)
      simp only [write, List.cons_append, List.append_assoc, writeFields_append, List.nil_append]
      simp only [quote, List.cons_append] at fields ⊢
      rw [readValue_object (layout.blankLine _), fields]
      rfl

theorem readItems_write (layout : Layout) : ∀ (items : List Json) (level steps : Nat)
    (blanks rest : List Char), wholeItems items = true → sizeItems items ≤ steps →
      (∀ char ∈ blanks, isBlank char = true) →
      match items with
      | [] => True
      | item :: others =>
          readItems steps (write layout level item ++
            writeItems layout level others (blanks ++ ']' :: rest)) =
            some (sourceItems (item :: others), rest)
  | [], _, _, _, _, _, _, _ => trivial
  | item :: others, level, 0, _, _, _, enough, _ => by simp [sizeItems] at enough
  | item :: others, level, steps + 1, blanks, rest, exact, enough, blank => by
      simp only [wholeItems, Bool.and_eq_true] at exact
      simp only [sizeItems] at enough
      cases others with
      | nil =>
          have ends : EndsNumber (blanks ++ ']' :: rest) := endsNumber_append blank (by simp) rest
          have head := readValue_write layout item level steps _ exact.1 (by omega) ends
          have visible : isBlank ']' = false := rfl
          simp only [writeItems, readItems, head, Option.bind_eq_bind, Option.bind_some,
            skipBlank_append blank, skipBlank_of_head visible, sourceItems, Option.pure_def]
      | cons next more =>
          have ends : EndsNumber (',' :: (layout.line level ++ (write layout level next ++
              writeItems layout level more (blanks ++ ']' :: rest)))) :=
            endsNumber_append (List.forall_mem_nil _) (by simp) _
          have head := readValue_write layout item level steps _ exact.1 (by omega) ends
          have tail := readItems_write layout (next :: more) level steps blanks rest exact.2
            (by omega) blank
          have visible : isBlank ',' = false := rfl
          simp only at tail
          simp only [writeItems, readItems, head, Option.bind_eq_bind, Option.bind_some,
            skipBlank_of_head visible, readItems_append (layout.blankLine level), tail,
            sourceItems, Option.pure_def]

theorem readFields_write (layout : Layout) : ∀ (fields : List (String × Json))
    (level steps : Nat) (blanks rest : List Char), wholeFields fields = true →
      sizeFields fields ≤ steps → (∀ char ∈ blanks, isBlank char = true) →
      match fields with
      | [] => True
      | (name, value) :: others =>
          readFields steps (quote name ++ ':' :: (layout.gap ++ (write layout level value ++
            writeFields layout level others (blanks ++ '\x7d' :: rest)))) =
            some (sourceFields ((name, value) :: others), rest)
  | [], _, _, _, _, _, _, _ => trivial
  | (name, value) :: others, level, 0, _, _, _, enough, _ => by simp [sizeFields] at enough
  | (name, value) :: others, level, steps + 1, blanks, rest, exact, enough, blank => by
      simp only [wholeFields, Bool.and_eq_true] at exact
      simp only [sizeFields] at enough
      have quoteMark : isBlank '"' = false := rfl
      have colon : isBlank ':' = false := rfl
      cases others with
      | nil =>
          have ends : EndsNumber (blanks ++ '\x7d' :: rest) :=
            endsNumber_append blank (by simp) rest
          have head := readValue_write layout value level steps _ exact.1 (by omega) ends
          have visible : isBlank '\x7d' = false := rfl
          simp only [quote_append, writeFields, readFields, skipBlank_of_head quoteMark,
            readSymbols_chars, Option.bind_eq_bind,
            Option.bind_some, skipBlank_of_head colon, readValue_append layout.blankGap, head,
            skipBlank_append blank, skipBlank_of_head visible, sourceFields, symbolsOf,
            Option.pure_def]
      | cons next more =>
          obtain ⟨nextName, nextValue⟩ := next
          have ends : EndsNumber (',' :: (layout.line level ++ (quote nextName ++ ':' ::
              (layout.gap ++ (write layout level nextValue ++
                writeFields layout level more (blanks ++ '\x7d' :: rest)))))) :=
            endsNumber_append (List.forall_mem_nil _) (by simp) _
          have head := readValue_write layout value level steps _ exact.1 (by omega) ends
          have tail := readFields_write layout ((nextName, nextValue) :: more) level steps blanks
            rest exact.2 (by omega) blank
          have visible : isBlank ',' = false := rfl
          simp only at tail
          simp only [writeFields]
          rw [quote_append name, readFields, skipBlank_of_head quoteMark]
          simp only [readSymbols_chars, Option.bind_eq_bind, Option.bind_some,
            skipBlank_of_head colon, readValue_append layout.blankGap, head,
            skipBlank_of_head visible, readFields_append (layout.blankLine level), tail,
            sourceFields, symbolsOf, Option.pure_def]
end

/-! ## Whole texts -/

mutual
/-- A text has at least half as many characters as it takes steps to read it. -/
theorem size_le_write (layout : Layout) : ∀ (value : Json) (level : Nat), whole value = true →
    size value ≤ 2 * (write layout level value).length
  | .null, _, _ => by simp [size, write]
  | .bool true, _, _ => by simp [size, write]
  | .bool false, _, _ => by simp [size, write]
  | .number value, _, exact => by
      obtain ⟨char, rest, shape, _⟩ := chars_head exact
      simp only [size, write, shape, List.length_cons]
      omega
  | .string value, _, _ => by
      simp only [size, write, quote, List.cons_append, List.length_cons]
      omega
  | .array [], _, _ => by simp [size, sizeItems, write]
  | .array (item :: rest), level, exact => by
      simp only [whole, wholeItems, Bool.and_eq_true] at exact
      have head := size_le_write layout item (level + 1) exact.1
      have tail := sizeItems_le_write layout rest (level + 1) (layout.line level ++ [']']) exact.2
      simp only [size, sizeItems, write, List.length_cons, List.length_append] at tail ⊢
      omega
  | .object [], _, _ => by simp [size, sizeFields, write]
  | .object ((name, value) :: rest), level, exact => by
      simp only [whole, wholeFields, Bool.and_eq_true] at exact
      have head := size_le_write layout value (level + 1) exact.1
      have tail := sizeFields_le_write layout rest (level + 1) (layout.line level ++ ['\x7d'])
        exact.2
      simp only [size, sizeFields, write, List.length_cons, List.length_append] at tail ⊢
      omega

theorem sizeItems_le_write (layout : Layout) : ∀ (items : List Json) (level : Nat)
    (after : List Char), wholeItems items = true →
      sizeItems items + 2 * after.length ≤ 2 * (writeItems layout level items after).length
  | [], _, _, _ => by simp [sizeItems, writeItems]
  | item :: rest, level, after, exact => by
      simp only [wholeItems, Bool.and_eq_true] at exact
      have head := size_le_write layout item level exact.1
      have tail := sizeItems_le_write layout rest level after exact.2
      simp only [sizeItems, writeItems, List.length_cons, List.length_append]
      omega

theorem sizeFields_le_write (layout : Layout) : ∀ (fields : List (String × Json)) (level : Nat)
    (after : List Char), wholeFields fields = true →
      sizeFields fields + 2 * after.length ≤ 2 * (writeFields layout level fields after).length
  | [], _, _, _ => by simp [sizeFields, writeFields]
  | (name, value) :: rest, level, after, exact => by
      simp only [wholeFields, Bool.and_eq_true] at exact
      have head := size_le_write layout value level exact.1
      have tail := sizeFields_le_write layout rest level after exact.2
      simp only [sizeFields, writeFields, List.length_cons, List.length_append]
      omega
end

theorem read?_write (layout : Layout) {value : Json} (exact : whole value = true) :
    Source.read? (String.ofList (write layout 0 value)) = some (source value) := by
  have ends : EndsNumber [] := by simp [EndsNumber]
  have enough := size_le_write layout value 0 exact
  have read := readValue_write layout value 0 (2 * (write layout 0 value).length + 2) [] exact
    (by omega) ends
  rw [List.append_nil] at read
  rw [Source.read?, String.toList_ofList]
  dsimp only
  rw [read]
  rfl

theorem read?_prettyText {value : Json} (exact : whole value = true) :
    Source.read? (prettyText value) = some (source value) := by
  rw [prettyText, pretty_eq_write]
  exact read?_write prettyLayout exact

theorem read?_compactText {value : Json} (exact : whole value = true) :
    Source.read? (compactText value) = some (source value) := by
  rw [compactText, compact_eq_write value 0]
  exact read?_write compactLayout exact

end GameExport.Json
