import GameExport.Text.Size
import Mathlib.Tactic.IntervalCases
import Mathlib.Tactic.Ring

/-! # How sizes are shown

A whole number of few bits is held exactly by a floating-point format, so the size that is shown is
the size that was given. Main statement: a size is shown as the nearest tenth of a unit that it
reaches, and that is less than 1024 of the unit, the largest unit aside, exactly if the size is more
than a twentieth of the unit below the next one.
-/

namespace GameExport

/-! ## Rounding -/

theorem roundHalfEven_mul (value : Nat) {denominator : Nat} (positive : 0 < denominator) :
    roundHalfEven (value * denominator) denominator = value := by
  simp [roundHalfEven, Nat.mul_div_cancel value positive, positive]

theorem roundHalfEven_even_of_tie {numerator denominator : Nat} (positive : 0 < denominator)
    (tie : 2 * numerator = (2 * roundHalfEven numerator denominator + 1) * denominator) :
    roundHalfEven numerator denominator % 2 = 0 := by
  have division := Nat.div_add_mod numerator denominator
  have restSmall := Nat.mod_lt numerator positive
  have expand (value : Nat) : (2 * value + 1) * denominator =
      2 * (denominator * value) + denominator := by ring
  rw [expand] at tie
  unfold roundHalfEven at tie ⊢
  simp only at tie ⊢
  split
  · rename_i below
    rw [if_pos below] at tie
    omega
  · rename_i notBelow
    rw [if_neg notBelow] at tie
    split
    · rename_i above
      rw [if_pos above, Nat.mul_add, Nat.mul_one] at tie
      omega
    · omega

/-- An even number is reached from half a unit below it on. -/
theorem le_roundHalfEven_iff (numerator : Nat) {denominator target : Nat}
    (positive : 0 < denominator) (even : target % 2 = 0) :
    target ≤ roundHalfEven numerator denominator ↔
      2 * target * denominator ≤ 2 * numerator + denominator := by
  have within := roundHalfEven_within_half numerator denominator positive
  constructor
  · intro reached
    have scaled : 2 * target * denominator ≤
        2 * roundHalfEven numerator denominator * denominator :=
      Nat.mul_le_mul_right _ (Nat.mul_le_mul_left 2 reached)
    exact scaled.trans within.2
  · intro near
    by_contra short
    have short : roundHalfEven numerator denominator + 1 ≤ target := by omega
    have scaled : 2 * (roundHalfEven numerator denominator + 1) * denominator ≤
        2 * target * denominator := Nat.mul_le_mul_right _ (Nat.mul_le_mul_left 2 short)
    have expand : 2 * (roundHalfEven numerator denominator + 1) * denominator =
        (2 * roundHalfEven numerator denominator + 1) * denominator + denominator := by ring
    have tie : 2 * numerator = (2 * roundHalfEven numerator denominator + 1) * denominator := by
      omega
    have isEven := roundHalfEven_even_of_tie positive tie
    have same : roundHalfEven numerator denominator + 2 ≤ target := by omega
    have further : 2 * (roundHalfEven numerator denominator + 2) * denominator ≤
        2 * target * denominator := Nat.mul_le_mul_right _ (Nat.mul_le_mul_left 2 same)
    have expand : 2 * (roundHalfEven numerator denominator + 2) * denominator =
        (2 * roundHalfEven numerator denominator + 1) * denominator + 3 * denominator := by ring
    omega

/-! ## Whole numbers in floating point -/

namespace BinaryFormat

theorem magnitude_of_full {format : BinaryFormat} {shift significand : Nat}
    (low : 2 ^ format.fractionBits ≤ significand)
    (high : significand < 2 ^ (format.fractionBits + 1)) :
    format.magnitude (shift * 2 ^ format.fractionBits + significand) = significand * 2 ^ shift := by
  have positive : 0 < 2 ^ format.fractionBits := Nat.two_pow_pos _
  rw [Nat.pow_succ] at high
  rcases Nat.exists_eq_add_of_le low with ⟨fraction, rfl⟩
  have bound : fraction < 2 ^ format.fractionBits := by omega
  have pattern : shift * 2 ^ format.fractionBits + (2 ^ format.fractionBits + fraction) =
      fraction + 2 ^ format.fractionBits * (shift + 1) := by ring
  have field : (fraction + 2 ^ format.fractionBits * (shift + 1)) / 2 ^ format.fractionBits =
      shift + 1 := by
    rw [Nat.add_mul_div_left _ _ positive, Nat.div_eq_of_lt bound, Nat.zero_add]
  have rest : (fraction + 2 ^ format.fractionBits * (shift + 1)) % 2 ^ format.fractionBits =
      fraction := by
    rw [Nat.add_mul_mod_self_left, Nat.mod_eq_of_lt bound]
  rw [pattern, magnitude]
  simp only [Nat.pow_eq, field, rest]
  rw [if_neg (Nat.succ_ne_zero _), Nat.add_sub_cancel, Nat.add_comm fraction]

theorem magnitude_ofNat {format : BinaryFormat} (fine : format.fractionBits ≤ format.scaleBits)
    (wide : (format.scaleBits + 2) * 2 ^ format.fractionBits ≤ format.infinity) {value : Nat}
    (small : value < 2 ^ (format.fractionBits + 1)) :
    format.magnitude (format.ofNat value) = value * format.unitsPerOne := by
  rcases Nat.eq_zero_or_pos value with rfl | positive
  · simp [ofNat, nearest, magnitude, roundHalfEven]
  · have length : value.log2 ≤ format.fractionBits :=
      Nat.lt_succ_iff.mp ((Nat.log2_lt (by omega)).mpr small)
    have bounds := (Nat.log2_eq_iff (Nat.ne_of_gt positive)).mp rfl
    -- the significand is the number moved to the left until it has full length
    let spare : Nat := format.fractionBits - value.log2
    let shift : Nat := format.scaleBits - spare
    have low : 2 ^ format.fractionBits ≤ value * 2 ^ spare := by
      have split : format.fractionBits = value.log2 + spare := by omega
      rw [split, Nat.pow_add]
      exact Nat.mul_le_mul_right _ bounds.1
    have high : value * 2 ^ spare < 2 ^ (format.fractionBits + 1) := by
      have split : format.fractionBits + 1 = value.log2 + 1 + spare := by omega
      rw [split, Nat.pow_add]
      exact Nat.mul_lt_mul_of_pos_right bounds.2 (Nat.two_pow_pos _)
    have scaled : value * format.unitsPerOne = value * 2 ^ spare * 2 ^ shift := by
      have split : format.scaleBits = spare + shift := by omega
      rw [unitsPerOne, Nat.pow_eq, split, Nat.pow_add, Nat.mul_assoc]
    have scaledLength : (value * format.unitsPerOne).log2 = format.fractionBits + shift := by
      rw [Nat.log2_eq_iff (by rw [scaled]; positivity), scaled]
      constructor
      · rw [Nat.pow_add]
        exact Nat.mul_le_mul_right _ low
      · rw [Nat.add_right_comm, Nat.pow_add]
        exact Nat.mul_lt_mul_of_pos_right high (Nat.two_pow_pos _)
    have pattern : format.ofNat value =
        shift * 2 ^ format.fractionBits + value * 2 ^ spare := by
      rw [ofNat, nearest]
      simp only [Nat.div_one, scaledLength, Nat.add_sub_cancel_left, Nat.one_mul, Nat.pow_eq]
      rw [scaled, roundHalfEven_mul _ (Nat.two_pow_pos _)]
      apply Nat.min_eq_right
      calc shift * 2 ^ format.fractionBits + value * 2 ^ spare
          ≤ shift * 2 ^ format.fractionBits + 2 ^ (format.fractionBits + 1) :=
            Nat.add_le_add_left high.le _
        _ = (shift + 2) * 2 ^ format.fractionBits := by ring
        _ ≤ (format.scaleBits + 2) * 2 ^ format.fractionBits :=
            Nat.mul_le_mul_right _ (by omega)
        _ ≤ format.infinity := wide
    rw [pattern, magnitude_of_full low high, scaled]

theorem unitsPerOne_pos (format : BinaryFormat) : 0 < format.unitsPerOne := by
  rw [unitsPerOne, Nat.pow_eq]
  exact Nat.two_pow_pos _

theorem floor_double_ofNat {value : Nat} (small : value < 2 ^ 53) :
    double.floor (double.ofNat value) = value := by
  rw [floor, magnitude_ofNat (by decide) (by decide) small,
    Nat.mul_div_cancel _ double.unitsPerOne_pos]

end BinaryFormat

/-! ## Units -/

namespace Text

theorem unitBytes_pos (place : Nat) : 0 < unitBytes place := by
  rw [unitBytes, Nat.pow_eq]
  positivity

theorem unitBytes_succ (place : Nat) : unitBytes (place + 1) = unitBytes place * 1024 := by
  rw [unitBytes, unitBytes, Nat.pow_eq, Nat.pow_eq, Nat.pow_succ]

/-- What the place of a unit says of a size: the unit is reached if the first one is, and the next
one is not. -/
structure PlaceOf (size first count place : Nat) : Prop where
  isUnit : place < first + count
  reached : unitBytes first ≤ size → unitBytes place ≤ size
  largest : place + 1 < first + count → size < unitBytes (place + 1)

theorem placeOf_unitPlace (size : Nat) {units : List String} (some : units ≠ []) (first : Nat) :
    PlaceOf size first units.length (unitPlace size units first) := by
  fun_induction unitPlace size units first with
  | case1 unit next rest first large induction =>
      have further := induction (by simp)
      have reached : unitBytes (first + 1) ≤ size := by rwa [unitBytes_succ]
      refine ⟨?_, fun _ => further.reached reached, fun inner => further.largest ?_⟩
      · have isUnit := further.isUnit
        simp only [List.length_cons] at isUnit ⊢
        omega
      · simp only [List.length_cons] at inner ⊢
        omega
  | case2 unit next rest first small =>
      rw [not_le, ← unitBytes_succ] at small
      exact ⟨by simp, id, fun _ => small⟩
  | case3 units first single =>
      cases units with
      | nil => exact absurd rfl some
      | cons unit rest =>
          cases rest with
          | nil => exact ⟨by simp, id, fun inner => absurd inner (by simp)⟩
          | cons next rest => exact absurd rfl (single unit next rest)

/-! ## Sizes -/

/-- How a size of a kilobyte or more is shown: as a number of tenths of the unit at a place. -/
structure Shown (bytes place tenths : Nat) : Prop where
  text : ∃ unit, sizeUnits[place]? = some unit ∧
    size bytes = s!"{tenths / 10}.{tenths % 10} {unit}"
  reached : 10 ≤ tenths
  notAbove : 2 * tenths * unitBytes place ≤ 20 * bytes + unitBytes place
  notBelow : 20 * bytes ≤ 2 * tenths * unitBytes place + unitBytes place

/-- A size is shown exactly below a kilobyte and to the nearest tenth of the largest unit that it
reaches from there on. In other units than the largest one there is, the number is less than 1024
exactly if the size is more than a twentieth of the unit below the next unit, and 1024 otherwise. -/
theorem size_shown (bytes : Nat) (isExact : bytes < 2 ^ 53) :
    (bytes < 1024 → size bytes = s!"{bytes} B") ∧
      (1024 ≤ bytes → ∃ place tenths, Shown bytes place tenths ∧
        unitBytes place ≤ bytes ∧ (place + 1 < sizeUnits.length →
          bytes < unitBytes (place + 1) ∧ tenths ≤ 10240 ∧
            (tenths < 10240 ↔ 20 * bytes + unitBytes place < 20 * unitBytes (place + 1)))) := by
  constructor
  · intro small
    rw [size, if_pos small]
  · intro large
    have held : heldSize bytes = bytes := BinaryFormat.floor_double_ofNat isExact
    let place : Nat := unitPlace bytes sizeUnits 0
    have placed : PlaceOf bytes 0 sizeUnits.length place := placeOf_unitPlace bytes (by decide) 0
    have positive := unitBytes_pos place
    have reached : unitBytes place ≤ bytes := placed.reached large
    have shown : tenths bytes place = roundHalfEven (bytes * 10) (unitBytes place) := by
      rw [tenths, held]
    have within := roundHalfEven_within_half (bytes * 10) (unitBytes place) positive
    have fromTen := le_roundHalfEven_iff (bytes * 10) positive (rfl : 10 % 2 = 0)
    have fromNext := le_roundHalfEven_iff (bytes * 10) positive (rfl : 10240 % 2 = 0)
    rw [← shown] at within fromTen fromNext
    refine ⟨place, tenths bytes place, ⟨⟨sizeUnits.getD place "", ?_, ?_⟩, ?_, ?_, ?_⟩, reached,
      fun inner => ?_⟩
    · have isUnit : place < sizeUnits.length := by simpa using placed.isUnit
      rw [List.getD_eq_getElem?_getD, List.getElem?_eq_getElem isUnit, Option.getD_some]
    · rw [size, if_neg (by omega), held]
    · exact fromTen.mpr (by omega)
    · omega
    · have expand : (2 * tenths bytes place + 1) * unitBytes place =
          2 * tenths bytes place * unitBytes place + unitBytes place := by ring
      omega
    · have below := placed.largest (by simpa using inner)
      rw [unitBytes_succ] at below ⊢
      refine ⟨below, ?_, by omega⟩
      by_contra above
      have scaled : 2 * 10241 * unitBytes place ≤ 2 * tenths bytes place * unitBytes place :=
        Nat.mul_le_mul_right _ (by omega)
      omega

/-- The largest size that is shown as less than 1024 kilobytes. -/
theorem size_shown_lastKilobytes :
    1048524 < 2 ^ 53 ∧ ∃ place tenths, Shown 1048524 place tenths ∧
      unitBytes place ≤ 1048524 ∧ (place + 1 < sizeUnits.length →
        1048524 < unitBytes (place + 1) ∧ tenths ≤ 10240 ∧
          (tenths < 10240 ↔ 20 * 1048524 + unitBytes place < 20 * unitBytes (place + 1))) :=
  ⟨by decide, (size_shown 1048524 (by decide)).2 (by decide)⟩

/-- The number is not always less than 1024: a byte less than a megabyte is shown as 1024
kilobytes. -/
theorem not_always_belowNext :
    ¬ ∀ bytes, bytes < 2 ^ 53 → 1024 ≤ bytes → ∃ place tenths, Shown bytes place tenths ∧
      (place + 1 < sizeUnits.length → tenths < 10240) := by
  intro always
  rcases always 1048575 (by decide) (by decide) with ⟨place, tenths, shown, below⟩
  rcases shown with ⟨⟨unit, stands, text⟩, reached, notAbove, notBelow⟩
  have found : size 1048575 = "1024.0 KB" := by decide +kernel
  rw [found] at text
  have isUnit : place < 4 := (List.getElem?_eq_some_iff.mp stands).1
  -- only in kilobytes and megabytes is the number near enough, and megabytes are not shown
  interval_cases place
  · rw [show unitBytes 0 = 1024 from rfl] at notAbove notBelow
    have small := below (by decide)
    omega
  · rw [show unitBytes 1 = 1048576 from rfl] at notAbove notBelow
    obtain rfl : tenths = 10 := by omega
    obtain rfl : unit = "MB" := (Option.some.inj stands).symm
    exact absurd text (by decide +kernel)
  · rw [show unitBytes 2 = 1073741824 from rfl] at notAbove notBelow
    omega
  · rw [show unitBytes 3 = 1099511627776 from rfl] at notAbove notBelow
    omega

end Text

end GameExport
