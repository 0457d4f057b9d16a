import GameExport.Json.Value

/-! # Sorted values

Reading sorts the fields of every object by name, so that two documents that differ only in
the order of fields become one value. Main statement: whatever reading gives is sorted.
-/

namespace GameExport.Json

def increasing : List String → Bool
  | first :: second :: rest => decide (first < second) && increasing (second :: rest)
  | _ => true

mutual
def sorted : Json → Bool
  | .array items => sortedItems items
  | .object fields => increasing (fields.map (·.1)) && sortedFields fields
  | _ => true

def sortedItems : List Json → Bool
  | [] => true
  | item :: rest => sorted item && sortedItems rest

def sortedFields : List (String × Json) → Bool
  | [] => true
  | (_, value) :: rest => sorted value && sortedFields rest
end

theorem sortedItems_of_forall {items : List Json} (all : ∀ item ∈ items, sorted item = true) :
    sortedItems items = true := by
  induction items with
  | nil => rfl
  | cons item rest induction =>
      simp only [sortedItems, Bool.and_eq_true]
      exact ⟨all item (by simp), induction fun other member => all other (by simp [member])⟩

theorem sortedFields_insertField {name : String} {value : Json} (isSorted : sorted value = true)
    {fields : List (String × Json)} (all : sortedFields fields = true) :
    sortedFields (insertField name value fields) = true := by
  induction fields with
  | nil => simp [insertField, sortedFields, isSorted]
  | cons field rest induction =>
      obtain ⟨other, old⟩ := field
      simp only [sortedFields, Bool.and_eq_true] at all
      unfold insertField
      split
      · simp [sortedFields, isSorted, all.2]
      · split
        · simp [sortedFields, isSorted, all.1, all.2]
        · simp [sortedFields, all.1, induction all.2]

theorem insertField_head (name : String) (value : Json) (other : String) (old : Json)
    (rest : List (String × Json)) :
    (∃ tail, insertField name value ((other, old) :: rest) = (name, value) :: tail) ∨
      (other < name ∧
        insertField name value ((other, old) :: rest) =
          (other, old) :: insertField name value rest) := by
  by_cases same : name = other
  · left; exact ⟨rest, by simp [insertField, same]⟩
  · by_cases before : name < other
    · left; exact ⟨(other, old) :: rest, by simp [insertField, same, before]⟩
    · right; exact ⟨by grind, by simp [insertField, same, before]⟩

theorem increasing_insertField {name : String} {value : Json} {fields : List (String × Json)}
    (names : increasing (fields.map (·.1)) = true) :
    increasing ((insertField name value fields).map (·.1)) = true := by
  induction fields with
  | nil => simp [insertField, increasing]
  | cons field rest induction =>
      obtain ⟨other, old⟩ := field
      by_cases same : name = other
      · simpa [insertField, same] using names
      · by_cases before : name < other
        · simpa [insertField, same, before, increasing] using names
        · have after : other < name := by grind
          have step : insertField name value ((other, old) :: rest) =
              (other, old) :: insertField name value rest := by
            simp [insertField, same, before]
          rw [step]
          cases rest with
          | nil => simp [insertField, increasing, after]
          | cons next others =>
              obtain ⟨second, middle⟩ := next
              simp only [List.map_cons, increasing, Bool.and_eq_true, decide_eq_true_eq] at names
              have tailSorted := induction names.2
              rcases insertField_head name value second middle others with
                ⟨tail, shape⟩ | ⟨_, shape⟩
              · rw [shape] at tailSorted ⊢
                simpa [increasing, after] using tailSorted
              · rw [shape] at tailSorted ⊢
                simpa [increasing, names.1] using tailSorted

theorem sorted_sortFields {fields : List (String × Json)}
    (all : ∀ field ∈ fields, sorted field.2 = true) :
    sorted (.object (sortFields fields)) = true := by
  suffices step : ∀ before : List (String × Json),
      increasing (before.map (·.1)) = true → sortedFields before = true →
      sorted (.object
        (fields.foldl (fun sorted field => insertField field.1 field.2 sorted) before)) = true by
    exact step [] rfl rfl
  induction fields with
  | nil => intro before names values; simp [sorted, names, values]
  | cons field rest induction =>
      intro before names values
      exact induction (fun other member => all other (by simp [member])) _
        (increasing_insertField names)
        (sortedFields_insertField (all field (by simp)) values)

theorem forall_of_mapM {α β : Type} {property : β → Prop} {read : α → Option β}
    (holds : ∀ source value, read source = some value → property value)
    {sources : List α} {values : List β} (readAll : sources.mapM read = some values) :
    ∀ value ∈ values, property value := by
  induction sources generalizing values with
  | nil => simp at readAll; simp [readAll]
  | cons source rest induction =>
      simp only [List.mapM_cons, Option.bind_eq_bind, Option.bind_eq_some_iff, Option.pure_def,
        Option.some.injEq] at readAll
      obtain ⟨first, readFirst, others, readRest, rfl⟩ := readAll
      intro value member
      rcases List.mem_cons.mp member with rfl | member
      · exact holds source value readFirst
      · exact induction readRest value member

theorem sorted_of_value? {room : Nat} {source : Source} {value : Json}
    (read : source.value? room = some value) : sorted value = true := by
  induction room generalizing source value with
  | zero =>
      cases source <;> simp [Source.value?] at read <;> first
        | (subst read; rfl)
        | (obtain ⟨_, _, rfl⟩ := read; rfl)
  | succ room induction =>
      cases source with
      | null => simp [Source.value?] at read; subst read; rfl
      | bool => simp [Source.value?] at read; subst read; rfl
      | number => simp [Source.value?] at read; obtain ⟨_, _, rfl⟩ := read; rfl
      | string => simp [Source.value?] at read; obtain ⟨_, _, rfl⟩ := read; rfl
      | array items =>
          simp only [Source.value?, Option.map_eq_some_iff] at read
          obtain ⟨values, readAll, rfl⟩ := read
          exact sortedItems_of_forall (forall_of_mapM (fun _ _ => induction) readAll)
      | object fields =>
          simp only [Source.value?, Option.map_eq_some_iff] at read
          obtain ⟨values, readAll, rfl⟩ := read
          refine sorted_sortFields (forall_of_mapM ?_ readAll)
          rintro ⟨symbols, source⟩ ⟨name, value⟩ readField
          simp only [Option.bind_eq_bind, Option.bind_eq_some_iff, Option.pure_def,
            Option.some.injEq, Prod.mk.injEq] at readField
          obtain ⟨_, _, _, readValue, _, rfl⟩ := readField
          exact induction readValue

end GameExport.Json
