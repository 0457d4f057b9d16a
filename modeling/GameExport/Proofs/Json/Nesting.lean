import GameExport.Proofs.Json.Decoding
import Mathlib.Data.List.Induction

/-! # How deep documents nest

The reader leaves a document alone that nests deeper than the room it has. Main statement: the
source of a written document without floating point has a value if it nests no deeper, and this
value is the document itself with the fields of every object sorted.
-/

namespace GameExport.Json

mutual
def depth : Json → Nat
  | .array items => depthItems items + 1
  | .object fields => depthFields fields + 1
  | _ => 0

def depthItems : List Json → Nat
  | [] => 0
  | item :: rest => max (depth item) (depthItems rest)

def depthFields : List (String × Json) → Nat
  | [] => 0
  | (_, value) :: rest => max (depth value) (depthFields rest)
end

@[simp] theorem depth_array_le (items : List Json) (room : Nat) :
    depth (.array items) ≤ room + 1 ↔ ∀ item ∈ items, depth item ≤ room := by
  rw [depth, Nat.add_le_add_iff_right]
  induction items with
  | nil => simp [depthItems]
  | cons item rest induction =>
      rw [depthItems, Nat.max_le, induction, List.forall_mem_cons]

@[simp] theorem depth_object_le (fields : List (String × Json)) (room : Nat) :
    depth (.object fields) ≤ room + 1 ↔ ∀ field ∈ fields, depth field.2 ≤ room := by
  rw [depth, Nat.add_le_add_iff_right]
  induction fields with
  | nil => simp [depthFields]
  | cons field rest induction =>
      rw [depthFields, Nat.max_le, induction, List.forall_mem_cons]

theorem exists_room_of_array {items : List Json} {room : Nat}
    (shallow : depth (.array items) ≤ room) :
    ∃ inner, room = inner + 1 ∧ ∀ item ∈ items, depth item ≤ inner := by
  cases room with
  | zero => exact absurd shallow (Nat.not_succ_le_zero _)
  | succ inner => exact ⟨inner, rfl, (depth_array_le items inner).mp shallow⟩

theorem exists_room_of_object {fields : List (String × Json)} {room : Nat}
    (shallow : depth (.object fields) ≤ room) :
    ∃ inner, room = inner + 1 ∧ ∀ field ∈ fields, depth field.2 ≤ inner := by
  cases room with
  | zero => exact absurd shallow (Nat.not_succ_le_zero _)
  | succ inner => exact ⟨inner, rfl, (depth_object_le fields inner).mp shallow⟩

/-! ## Sorting fields -/

mutual
def sort : Json → Json
  | .array items => .array (sortItems items)
  | .object fields => .object (sortFields (sortValues fields))
  | .null => .null
  | .bool value => .bool value
  | .number value => .number value
  | .string value => .string value

def sortItems : List Json → List Json
  | [] => []
  | item :: rest => sort item :: sortItems rest

def sortValues : List (String × Json) → List (String × Json)
  | [] => []
  | (name, value) :: rest => (name, sort value) :: sortValues rest
end

theorem sortItems_eq_map (items : List Json) : sortItems items = items.map sort := by
  induction items with
  | nil => rfl
  | cons item rest induction => rw [sortItems, induction, List.map_cons]

theorem sortValues_eq_map (fields : List (String × Json)) :
    sortValues fields = fields.map fun field => (field.1, sort field.2) := by
  induction fields with
  | nil => rfl
  | cons field rest induction => rw [sortValues, induction, List.map_cons]

theorem insertField_append {name : String} (value : Json) {fields : List (String × Json)}
    (after : ∀ field ∈ fields, field.1 < name) :
    insertField name value fields = fields ++ [(name, value)] := by
  induction fields with
  | nil => rfl
  | cons field rest induction =>
      obtain ⟨other, old⟩ := field
      have before : other < name := after (other, old) List.mem_cons_self
      have others := induction fun field member => after field (List.mem_cons_of_mem _ member)
      have different : name ≠ other := fun same => String.lt_irrefl name (same ▸ before)
      rw [insertField, if_neg different, if_neg (String.lt_asymm before), others]
      rfl

theorem pairwise_of_increasing {names : List String} (inOrder : increasing names = true) :
    names.Pairwise (· < ·) := by
  induction names with
  | nil => exact .nil
  | cons first rest induction =>
      cases rest with
      | nil => exact List.pairwise_singleton _ _
      | cons second others =>
          rw [increasing, Bool.and_eq_true, decide_eq_true_eq] at inOrder
          have ordered := induction inOrder.2
          refine .cons ?_ ordered
          intro name member
          rcases List.mem_cons.mp member with rfl | member
          · exact inOrder.1
          · exact String.lt_trans inOrder.1 (List.rel_of_pairwise_cons ordered member)

theorem sortFields_of_increasing {fields : List (String × Json)}
    (inOrder : increasing (fields.map (·.1)) = true) : sortFields fields = fields := by
  have ordered := List.pairwise_map.mp (pairwise_of_increasing inOrder)
  clear inOrder
  -- The fields that have been put in so far are those in front.
  induction fields using List.reverseRecOn with
  | nil => rfl
  | append_singleton front field induction =>
      obtain ⟨front_ordered, -, before⟩ := List.pairwise_append.mp ordered
      have sorted := induction front_ordered
      rw [sortFields] at sorted ⊢
      rw [List.foldl_append, sorted]
      exact insertField_append _ fun other member =>
        before other member field List.mem_cons_self

mutual
theorem sort_of_sorted : ∀ value : Json, sorted value = true → sort value = value
  | .null, _ => rfl
  | .bool _, _ => rfl
  | .number _, _ => rfl
  | .string _, _ => rfl
  | .array items, isSorted => by rw [sort, sortItems_of_sorted items isSorted]
  | .object fields, isSorted => by
      rw [sorted, Bool.and_eq_true] at isSorted
      rw [sort, sortValues_of_sorted fields isSorted.2, sortFields_of_increasing isSorted.1]

theorem sortItems_of_sorted : ∀ items : List Json, sortedItems items = true →
    sortItems items = items
  | [], _ => rfl
  | item :: rest, isSorted => by
      rw [sortedItems, Bool.and_eq_true] at isSorted
      rw [sortItems, sort_of_sorted item isSorted.1, sortItems_of_sorted rest isSorted.2]

theorem sortValues_of_sorted : ∀ fields : List (String × Json), sortedFields fields = true →
    sortValues fields = fields
  | [], _ => rfl
  | (name, value) :: rest, isSorted => by
      rw [sortedFields, Bool.and_eq_true] at isSorted
      rw [sortValues, sort_of_sorted value isSorted.1, sortValues_of_sorted rest isSorted.2]
end

/-! ## Values of sources -/

theorem whole_of_mem_items {items : List Json} (exact : whole (.array items) = true) {item : Json}
    (member : item ∈ items) : whole item = true := by
  rw [whole, wholeItems_eq_all] at exact
  exact List.all_eq_true.mp exact item member

theorem whole_of_mem_fields {fields : List (String × Json)}
    (exact : whole (.object fields) = true) {field : String × Json} (member : field ∈ fields) :
    whole field.2 = true := by
  rw [whole] at exact
  induction fields with
  | nil => cases member
  | cons first rest induction =>
      rw [wholeFields, Bool.and_eq_true] at exact
      rcases List.mem_cons.mp member with rfl | member
      · exact exact.1
      · exact induction exact.2 member

theorem value?_literal {value : Number} (exact : whole (.number value) = true) :
    value.literal.value? = some value := by
  cases value with
  | natural value => exact value?_natural value
  | negative below => exact value?_negative below
  | float value => cases exact

/-- A document that there is room for is read as itself, with its fields sorted. -/
theorem value?_source {value : Json} (exact : whole value = true) {room : Nat}
    (shallow : depth value ≤ room) : (source value).value? room = some (sort value) := by
  induction room generalizing value with
  | zero =>
      cases value with
      | null => rfl
      | bool value => rfl
      | number value => simp [source, Source.value?, sort, value?_literal exact]
      | string value => simp [source, Source.value?, sort, text?_symbolsOf]
      | array items => exact absurd shallow (Nat.not_succ_le_zero _)
      | object fields => exact absurd shallow (Nat.not_succ_le_zero _)
  | succ room induction =>
      cases value with
      | null => rfl
      | bool value => rfl
      | number value => simp [source, Source.value?, sort, value?_literal exact]
      | string value => simp [source, Source.value?, sort, text?_symbolsOf]
      | array items =>
          have each : ∀ item ∈ items, (source item).value? room = some (sort item) :=
            fun item member => induction (whole_of_mem_items exact member)
              ((depth_array_le items room).mp shallow item member)
          rw [source, Source.value?, sourceItems_eq_map, mapM_map_eq_map sort each, sort,
            sortItems_eq_map]
          rfl
      | object fields =>
          have each : ∀ field ∈ fields, (source field.2).value? room = some (sort field.2) :=
            fun field member => induction (whole_of_mem_fields exact member)
              ((depth_object_le fields room).mp shallow field member)
          rw [source, Source.value?, sourceFields_eq_map,
            mapM_map_eq_map (fun field => (field.1, sort field.2)), sort,
            sortValues_eq_map]
          · rfl
          · intro field member
            simp [text?_symbolsOf, each field member]

end GameExport.Json
