import GameExport.Json.Printer
import GameExport.Json.Reader

/-! # Reading back strings and whole numbers

What is written for a string or a whole number is read back as the symbols or the literal that
stand for it. Main statements: the symbols of a written string are its characters, the control
characters as escapes, and they stand for the string; the literal of a whole number has its
value.
-/

namespace GameExport.Json

/-! ## Strings -/

def isNumbered (char : Char) : Bool :=
  decide (char.toNat < 0x20) && !(['\x08', '\x0c', '\n', '\r', '\t'].contains char)

def symbolOf (char : Char) : Symbol :=
  if isNumbered char then .unit char.toNat else .char char

def symbolsOf (text : String) : List Symbol := text.toList.map symbolOf

theorem codeUnit?_hexDigit {code : Nat} (small : code < 0x20) :
    codeUnit? '0' '0' (hexDigit (code / 16)) (hexDigit (code % 16)) = some code := by
  have all : ∀ code : Fin 0x20,
      codeUnit? '0' '0' (hexDigit (code.val / 16)) (hexDigit (code.val % 16)) = some code.val := by
    decide
  exact all ⟨code, small⟩

private theorem readSymbols_plain {char : Char} (rest : List Char) (noQuote : char ≠ '"')
    (noEscape : char ≠ '\\') (printable : ¬ char.toNat < 0x20) :
    readSymbols (char :: rest) =
      (readSymbols rest).bind fun found => some (.char char :: found.1, found.2) := by
  rw [readSymbols.eq_def]
  split
  · contradiction
  · rename_i same
    exact absurd (List.cons.inj same).1 noQuote
  · rename_i same
    exact absurd (List.cons.inj same).1 noEscape
  · rename_i same
    exact absurd (List.cons.inj same).1 noEscape
  · rename_i same
    obtain ⟨rfl, rfl⟩ := List.cons.inj same
    simp [noEscape, printable]

private theorem readSymbols_short {char letter : Char} (rest : List Char)
    (named : shortEscape? letter = some char) (noUnit : letter ≠ 'u') :
    readSymbols ('\\' :: letter :: rest) =
      (readSymbols rest).bind fun found => some (.char char :: found.1, found.2) := by
  simp [readSymbols, noUnit, named]

theorem readSymbols_escape (char : Char) (rest : List Char) :
    readSymbols (escape char ++ rest) =
      (readSymbols rest).bind fun found => some (symbolOf char :: found.1, found.2) := by
  unfold escape
  split
  · subst char; exact readSymbols_short rest rfl (by decide)
  split
  · subst char; exact readSymbols_short rest rfl (by decide)
  split
  · subst char; exact readSymbols_short rest rfl (by decide)
  split
  · subst char; exact readSymbols_short rest rfl (by decide)
  split
  · subst char; exact readSymbols_short rest rfl (by decide)
  split
  · subst char; exact readSymbols_short rest rfl (by decide)
  split
  · subst char; exact readSymbols_short rest rfl (by decide)
  split
  · rename_i back form line carriage tab small
    have numbered : isNumbered char = true := by
      simp [isNumbered, small, back, form, line, carriage, tab]
    simp only [List.cons_append, List.nil_append, readSymbols, codeUnit?_hexDigit small, symbolOf,
      numbered, if_true]
    rfl
  · rename_i quote slash _ _ _ _ _ large
    have plain : isNumbered char = false := by simp [isNumbered, large]
    simp only [List.cons_append, List.nil_append, symbolOf, plain, Bool.false_eq_true, if_false]
    exact readSymbols_plain rest quote slash large

theorem readSymbols_chars (chars rest : List Char) :
    readSymbols (chars.flatMap escape ++ '"' :: rest) = some (chars.map symbolOf, rest) := by
  induction chars with
  | nil => simp [readSymbols]
  | cons char chars induction =>
      rw [List.flatMap_cons, List.append_assoc, readSymbols_escape, induction]
      rfl

theorem quote_append (text : String) (rest : List Char) :
    quote text ++ rest = '"' :: (text.toList.flatMap escape ++ '"' :: rest) := by
  simp [quote]

theorem chars?_unit {code : Nat} (small : code < 0x20) (symbols : List Symbol) :
    Symbol.chars? (.unit code :: symbols) =
      (Symbol.chars? symbols).map (Char.ofNat code :: ·) := by
  have noHigh : isHighHalf code = false := by simp [isHighHalf]; omega
  have noLow : isLowHalf code = false := by simp [isLowHalf]; omega
  cases symbols with
  | nil => simp [Symbol.chars?, noHigh, noLow]
  | cons next rest => cases next <;> simp [Symbol.chars?, noHigh, noLow]

theorem chars?_symbolOf (char : Char) (symbols : List Symbol) :
    Symbol.chars? (symbolOf char :: symbols) = (Symbol.chars? symbols).map (char :: ·) := by
  unfold symbolOf
  split
  · rename_i numbered
    have small : char.toNat < 0x20 := by
      simp only [isNumbered, Bool.and_eq_true, decide_eq_true_eq] at numbered
      exact numbered.1
    rw [chars?_unit small, Char.ofNat_toNat]
  · rfl

theorem text?_symbolsOf (text : String) : Symbol.text? (symbolsOf text) = some text := by
  have chars (list : List Char) : Symbol.chars? (list.map symbolOf) = some list := by
    induction list with
    | nil => rfl
    | cons char rest induction => rw [List.map_cons, chars?_symbolOf, induction]; rfl
  rw [Symbol.text?, symbolsOf, chars]
  simp

/-! ## Whole numbers -/

/-- What stands behind a number does not go on with it. -/
def EndsNumber (rest : List Char) : Prop :=
  ∀ char ∈ rest.head?, ¬ ('0' ≤ char ∧ char ≤ '9') ∧ char ≠ '.' ∧ char ≠ 'e' ∧ char ≠ 'E'

def digitsOf (value : Nat) : List Nat := (Nat.toDigits 10 value).map fun char => char.toNat - 48

theorem isDigit_of_mem_toDigits {value : Nat} {char : Char}
    (member : char ∈ Nat.toDigits 10 value) : '0' ≤ char ∧ char ≤ '9' := by
  have isDigit := Nat.isDigit_of_mem_toDigits (by decide) (by decide) member
  simpa [Char.isDigit, Char.le_def] using isDigit

theorem readDigits_append {chars rest : List Char}
    (digits : ∀ char ∈ chars, '0' ≤ char ∧ char ≤ '9') (ends : EndsNumber rest) :
    readDigits (chars ++ rest) = (chars.map fun char => char.toNat - 48, rest) := by
  induction chars with
  | nil =>
      cases rest with
      | nil => rfl
      | cons char rest =>
          have noDigit := (ends char rfl).1
          simp [readDigits, noDigit]
  | cons char chars induction =>
      have isDigit := digits char List.mem_cons_self
      have others := induction fun other member => digits other (List.mem_cons_of_mem _ member)
      simp [readDigits, isDigit, others]

theorem toDigits_head {value : Nat} {char : Char} {rest : List Char}
    (digits : Nat.toDigits 10 value = char :: rest) (zero : char = '0') : rest = [] := by
  induction value using Nat.strongRecOn generalizing char rest with
  | ind value induction =>
      by_cases small : value < 10
      · rw [Nat.toDigits_of_lt_base small] at digits
        exact (List.cons.inj digits).2.symm
      · rw [Nat.toDigits_of_base_le (by decide) (by omega)] at digits
        cases quotient : Nat.toDigits 10 (value / 10) with
        | nil => exact absurd quotient Nat.toDigits_ne_nil
        | cons first others =>
            rw [quotient, List.cons_append] at digits
            obtain ⟨same, rfl⟩ := List.cons.inj digits
            have nothing := induction (value / 10) (by omega) quotient (same.trans zero)
            have isZero : value / 10 = 0 := by
              rw [← Nat.ofDigitChars_ten_toDigits (n := value / 10), quotient, nothing,
                same.trans zero]
              rfl
            omega

theorem readWhole?_toDigits {rest : List Char} (value : Nat) (ends : EndsNumber rest) :
    readWhole? (Nat.toDigits 10 value ++ rest) = some (digitsOf value, rest) := by
  rw [readWhole?, readDigits_append (fun _ => isDigit_of_mem_toDigits) ends, ← digitsOf]
  split
  · rename_i none
    exact absurd (List.map_eq_nil_iff.mp (congrArg Prod.fst none)) Nat.toDigits_ne_nil
  · rename_i zeroFirst
    have zeroFirst := congrArg Prod.fst zeroFirst
    cases digits : Nat.toDigits 10 value with
    | nil => exact absurd digits Nat.toDigits_ne_nil
    | cons char others =>
        simp only [digitsOf, digits, List.map_cons, List.cons.injEq] at zeroFirst
        have isDigit := isDigit_of_mem_toDigits (digits ▸ List.mem_cons_self)
        have zero : char = '0' := by
          have atLeast : 48 ≤ char.toNat := isDigit.1
          exact Char.toNat_inj.mp (by simp; omega)
        simp [toDigits_head digits zero] at zeroFirst
  · rename_i same
    rw [← same]

def literalOf (negative : Bool) (value : Nat) : Literal := ⟨negative, digitsOf value, none, none⟩

private theorem readRest {rest : List Char} (ends : EndsNumber rest) :
    readFraction? rest = some (none, rest) ∧ readExponent? rest = some (none, rest) := by
  cases rest with
  | nil => exact ⟨rfl, rfl⟩
  | cons char rest =>
      obtain ⟨_, noPoint, noSmall, noLarge⟩ := ends char rfl
      constructor
      · rw [readFraction?.eq_def]
        split
        · rename_i same
          exact absurd (List.cons.inj same).1 noPoint
        · rfl
      · simp [readExponent?, noSmall, noLarge]

theorem readLiteral?_toDigits {rest : List Char} (value : Nat) (ends : EndsNumber rest) :
    readLiteral? (Nat.toDigits 10 value ++ rest) = some (literalOf false value, rest) := by
  have unsigned : ∀ others, Nat.toDigits 10 value ++ rest ≠ '-' :: others := by
    intro others same
    cases digits : Nat.toDigits 10 value with
    | nil => exact absurd digits Nat.toDigits_ne_nil
    | cons char more =>
        have isDigit := isDigit_of_mem_toDigits (digits ▸ List.mem_cons_self)
        rw [digits, List.cons_append] at same
        rw [(List.cons.inj same).1] at isDigit
        exact absurd isDigit (by decide)
  unfold readLiteral?
  split
  rename_i negative text same
  split at same
  · rename_i others shape
    exact absurd shape (unsigned others)
  · obtain ⟨rfl, rfl⟩ := Prod.mk.inj same
    simp [readWhole?_toDigits value ends, readRest ends, literalOf]

theorem readLiteral?_negative {rest : List Char} (value : Nat) (ends : EndsNumber rest) :
    readLiteral? ('-' :: (Nat.toDigits 10 value ++ rest)) = some (literalOf true value, rest) := by
  simp [readLiteral?, readWhole?_toDigits value ends, readRest ends, literalOf]

theorem hold_digits {chars : List Char} {kept : Nat}
    (fits : Nat.ofDigitChars 10 chars kept ≤ Literal.limit) :
    Literal.hold kept (chars.map fun char => char.toNat - 48) =
      (Nat.ofDigitChars 10 chars kept, []) := by
  induction chars generalizing kept with
  | nil => rfl
  | cons char rest induction =>
      rw [Nat.ofDigitChars_cons] at fits ⊢
      have grows : 10 * kept + (char.toNat - 48) ≤
          Nat.ofDigitChars 10 rest (10 * kept + (char.toNat - 48)) := by
        rw [Nat.ofDigitChars_eq_ofDigitChars_zero]
        exact Nat.le_trans (Nat.le_mul_of_pos_left _ (Nat.pow_pos (by decide)))
          (Nat.le_add_right _ _)
      have here : kept * 10 + (char.toNat - 48) ≤ Literal.limit := by
        rw [Nat.mul_comm]
        exact Nat.le_trans grows fits
      rw [List.map_cons, Literal.hold, if_pos here, Nat.mul_comm kept 10]
      exact induction fits

theorem hold_digitsOf {value : Nat} (fits : value ≤ Literal.limit) :
    Literal.hold 0 (digitsOf value) = (value, []) := by
  have same : Nat.ofDigitChars 10 (Nat.toDigits 10 value) 0 = value :=
    Nat.ofDigitChars_ten_toDigits
  rw [digitsOf, hold_digits (by rwa [same]), same]

theorem value?_natural (value : UInt64) :
    (literalOf false value.toNat).value? = some (.natural value) := by
  have fits : value.toNat ≤ Literal.limit := by
    have bound := value.toNat_lt
    unfold Literal.limit
    omega
  simp [Literal.value?, literalOf, hold_digitsOf fits]

theorem value?_negative (below : Fin 0x8000000000000000) :
    (literalOf true (below.val + 1)).value? = some (.negative below) := by
  have fits : below.val + 1 ≤ Literal.limit := by
    have bound := below.isLt
    unfold Literal.limit
    omega
  have bound : below.val + 1 ≤ 0x8000000000000000 := below.isLt
  simp [Literal.value?, literalOf, hold_digitsOf fits, bound]

end GameExport.Json
