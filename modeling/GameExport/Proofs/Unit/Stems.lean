import GameExport.Unit
import Mathlib.Logic.Function.Basic

/-! # Stems of units

The files and the function of a unit are named after its stem. Main statement: different units have
different stems, so neither their files nor their functions are mixed up.
-/

namespace GameExport

theorem underscore_notMem_toDigits {value : Nat} : '_' ∉ Nat.toDigits 10 value := by
  intro member
  have isDigit := Nat.isDigit_of_mem_toDigits (by decide) (by decide) member
  cases isDigit

theorem toDigits_injective : Function.Injective (Nat.toDigits 10) := by
  intro left right same
  have values := congrArg (Nat.ofDigitChars 10 · 0) same
  simpa [Nat.ofDigitChars_ten_toDigits] using values

theorem eq_of_append_cons_eq {α : Type} {mark : α} {front other back rest : List α}
    (same : front ++ mark :: back = other ++ mark :: rest) (unmarked : mark ∉ front)
    (unmarkedToo : mark ∉ other) : front = other ∧ back = rest := by
  induction front generalizing other with
  | nil =>
      cases other with
      | nil => exact ⟨rfl, (List.cons.inj same).2⟩
      | cons first others =>
          have isMark := (List.cons.inj same).1
          exact absurd (isMark ▸ List.mem_cons_self) unmarkedToo
  | cons first others induction =>
      cases other with
      | nil =>
          have isMark := (List.cons.inj same).1
          exact absurd (isMark ▸ List.mem_cons_self) unmarked
      | cons second more =>
          rcases List.cons.inj same with ⟨rfl, sameRest⟩
          rcases induction sameRest (fun member => unmarked (List.mem_cons_of_mem _ member))
            (fun member => unmarkedToo (List.mem_cons_of_mem _ member)) with ⟨rfl, backs⟩
          exact ⟨rfl, backs⟩

/-- How a character is written tells where the next one starts. -/
theorem mangleChar_append {left right : Char} {back rest : List Char}
    (same : mangleChar left ++ back = mangleChar right ++ rest) : left = right ∧ back = rest := by
  have plain {char : Char} (isPlain : char.isAlphanum = true) : char ≠ '_' := by
    rintro rfl
    cases isPlain
  -- An escape starts with a mark, which no plain character is, and its digits end at the next one.
  unfold mangleChar at same
  split at same
  · rename_i leftPlain
    split at same
    · exact List.cons.inj same
    · exact absurd (List.cons.inj same).1 (plain leftPlain)
  · split at same
    · rename_i rightPlain
      exact absurd (List.cons.inj same).1.symm (plain rightPlain)
    · have digits : Nat.toDigits 10 left.toNat ++ '_' :: back =
          Nat.toDigits 10 right.toNat ++ '_' :: rest := by
        simpa using same
      rcases eq_of_append_cons_eq digits underscore_notMem_toDigits underscore_notMem_toDigits with
        ⟨sameDigits, backs⟩
      exact ⟨Char.toNat_inj.mp (toDigits_injective sameDigits), backs⟩

theorem mangleChar_ne_nil (char : Char) : mangleChar char ≠ [] := by
  unfold mangleChar
  split <;> simp

theorem flatMap_mangleChar_injective {left right : List Char}
    (same : left.flatMap mangleChar = right.flatMap mangleChar) : left = right := by
  induction left generalizing right with
  | nil =>
      cases right with
      | nil => rfl
      | cons char rest =>
          rw [List.flatMap_nil, List.flatMap_cons] at same
          exact absurd (List.append_eq_nil_iff.mp same.symm).1 (mangleChar_ne_nil char)
  | cons char rest induction =>
      cases right with
      | nil =>
          rw [List.flatMap_nil, List.flatMap_cons] at same
          exact absurd (List.append_eq_nil_iff.mp same).1 (mangleChar_ne_nil char)
      | cons other others =>
          rw [List.flatMap_cons, List.flatMap_cons] at same
          rcases mangleChar_append same with ⟨rfl, sameRest⟩
          rw [induction sameRest]

theorem mangle_injective : Function.Injective mangle := by
  intro left right same
  exact String.toList_injective (flatMap_mangleChar_injective (String.ofList_injective same))

/-! ## Characters of stems -/

def IsWordChar (char : Char) : Prop := char.isAlphanum = true ∨ char = '_'

theorem isWordChar_of_mem_mangle {char : Char} {name : String}
    (member : char ∈ (mangle name).toList) : IsWordChar char := by
  rw [mangle, String.toList_ofList, List.mem_flatMap] at member
  rcases member with ⟨original, _, member⟩
  unfold mangleChar at member
  split at member
  · rename_i alphanumeric
    cases List.mem_singleton.mp member
    exact .inl alphanumeric
  · rcases List.mem_append.mp member with member | member
    · rcases List.mem_cons.mp member with rfl | member
      · exact .inr rfl
      · have isDigit := Nat.isDigit_of_mem_toDigits (by decide) (by decide) member
        exact .inl (by rw [Char.isAlphanum, isDigit, Bool.or_true])
    · exact .inr (List.mem_singleton.mp member)

theorem UnitName.isWordChar_of_mem_stem {char : Char} {unit : UnitName}
    (member : char ∈ unit.stem.toList) : IsWordChar char := by
  have isTag : unit.tag ∈ ["GD", "Scene", "Ext", "Src"] := by
    cases unit <;> simp [UnitName.tag]
  have letters : ∀ word ∈ ["GD", "Scene", "Ext", "Src"],
      word.toList.all Char.isAlphanum = true := by decide
  simp only [UnitName.stem, String.toList_append, List.mem_append] at member
  rcases member with (member | member) | member
  · exact .inl (List.all_eq_true.mp (letters _ (by simp)) char member)
  · exact .inl (List.all_eq_true.mp (letters _ isTag) char member)
  · exact isWordChar_of_mem_mangle member

/-! ## Stems are told apart -/

namespace UnitName

theorem eq_of_tag_append {left right : UnitName}
    (same : left.tag.toList ++ (mangle left.name).toList =
      right.tag.toList ++ (mangle right.name).toList) : left = right := by
  have names (kind : List Char) {name other : String}
      (sameNames : kind ++ (mangle name).toList = kind ++ (mangle other).toList) : name = other :=
    mangle_injective (String.toList_injective (List.append_cancel_left sameNames))
  cases left with
  | scene name =>
      cases right with
      | scene other => exact congrArg scene (names _ same)
      | externalEvents other => simp [tag] at same
      | sourceFile other => simp [tag] at same
  | externalEvents name =>
      cases right with
      | scene other => simp [tag] at same
      | externalEvents other => exact congrArg externalEvents (names _ same)
      | sourceFile other => simp [tag] at same
  | sourceFile name =>
      cases right with
      | scene other => simp [tag] at same
      | externalEvents other => simp [tag] at same
      | sourceFile other => exact congrArg sourceFile (names _ same)

theorem stem_injective : Function.Injective stem := by
  intro left right same
  have texts := congrArg String.toList same
  simp only [stem, String.toList_append, List.append_assoc] at texts
  exact eq_of_tag_append (List.append_cancel_left texts)

theorem entrySymbol_injective : Function.Injective entrySymbol := by
  intro left right same
  have texts := congrArg String.toList same
  simp only [entrySymbol, String.toList_append] at texts
  exact stem_injective (String.toList_injective (List.append_cancel_right texts))

end UnitName

end GameExport
