import GameExport.Json.Decoder
import GameExport.Proofs.Json.Layout

/-! # Decoding what was written

What the decoders make of the source of a written document. Main statement: a record whose first
fields are written in order fills the slots of those fields and leaves the others empty.
-/

namespace GameExport.Json

theorem sourceItems_eq_map (items : List Json) : sourceItems items = items.map source := by
  induction items with
  | nil => rfl
  | cons item rest induction => rw [sourceItems, induction, List.map_cons]

theorem sourceFields_eq_map (fields : List (String × Json)) :
    sourceFields fields = fields.map fun field => (symbolsOf field.1, source field.2) := by
  induction fields with
  | nil => rfl
  | cons field rest induction => rw [sourceFields, induction, List.map_cons]

theorem wholeItems_eq_all (items : List Json) : wholeItems items = items.all whole := by
  induction items with
  | nil => rfl
  | cons item rest induction => rw [wholeItems, induction, List.all_cons]

theorem wholeItems_map {α : Type} {encode : α → Json} {values : List α}
    (each : ∀ value ∈ values, whole (encode value) = true) :
    wholeItems (values.map encode) = true := by
  rw [wholeItems_eq_all, List.all_map]
  exact List.all_eq_true.mpr each

theorem whole_strings (values : List String) : whole (strings values) = true := by
  rw [strings, whole]
  exact wholeItems_map fun _ _ => rfl

theorem mapM_map_eq_map {α β γ : Type} {read : β → Option γ} {write : α → β} (change : α → γ)
    {values : List α} (each : ∀ value ∈ values, read (write value) = some (change value)) :
    (values.map write).mapM read = some (values.map change) := by
  induction values with
  | nil => rfl
  | cons value rest induction =>
      have others := induction fun other member => each other (List.mem_cons_of_mem _ member)
      rw [List.map_cons, List.mapM_cons, each value List.mem_cons_self, others]
      rfl

theorem mapM_map_eq_some {α β : Type} {read : β → Option α} {write : α → β} {values : List α}
    (each : ∀ value ∈ values, read (write value) = some value) :
    (values.map write).mapM read = some values := by
  rw [mapM_map_eq_map id each, List.map_id]

namespace Decoder

@[simp] theorem text_source (room : Nat) (value : String) :
    text room (source (.string value)) = some value :=
  text?_symbolsOf value

@[simp] theorem flag_source (room : Nat) (value : Bool) :
    flag room (source (.bool value)) = some value := rfl

theorem list_source {α : Type} {decoder : Decoder α} {encode : α → Json} {room : Nat}
    {values : List α}
    (each : ∀ value ∈ values, decoder room (source (encode value)) = some value) :
    list decoder (room + 1) (source (.array (values.map encode))) = some values := by
  rw [source, list, sourceItems_eq_map, List.map_map]
  exact mapM_map_eq_some each

@[simp] theorem list_text_source (room : Nat) (values : List String) :
    list text (room + 1) (source (strings values)) = some values :=
  list_source fun value _ => text_source room value

end Decoder

/-! ## Records -/

theorem namedFields?_source (fields : List (String × Json)) :
    namedFields? (sourceFields fields) =
      some (fields.map fun field => (field.1, source field.2)) := by
  induction fields with
  | nil => rfl
  | cons field rest induction =>
      rw [namedFields?] at induction
      rw [namedFields?, sourceFields, List.mapM_cons, induction]
      simp only [text?_symbolsOf]
      rfl

theorem valuesOf_of_notMem {name : String} {fields : List (String × Source)}
    (absent : name ∉ fields.map (·.1)) : valuesOf name fields = [] := by
  rw [valuesOf, List.map_eq_nil_iff, List.filter_eq_nil_iff]
  intro field member same
  exact absent (List.mem_map.mpr ⟨field, member, beq_iff_eq.mp same⟩)

theorem slots?_cons_of_notMem {name : String} {names : List String} (absent : name ∉ names)
    (value : Source) (fields : List (String × Source)) :
    slots? names ((name, value) :: fields) = slots? names fields := by
  induction names with
  | nil => rfl
  | cons other rest induction =>
      have different : name ≠ other := fun same => absent (same ▸ List.mem_cons_self)
      have others := induction fun member => absent (List.mem_cons_of_mem _ member)
      have skipped : valuesOf other ((name, value) :: fields) = valuesOf other fields := by
        simp [valuesOf, different]
      rw [slots?, slots?] at others
      rw [slots?, slots?, List.mapM_cons, List.mapM_cons, skipped, others]

theorem slots?_append (fields : List (String × Source)) (missing : List String)
    (distinct : (fields.map (·.1) ++ missing).Nodup) :
    slots? (fields.map (·.1) ++ missing) fields =
      some (fields.map (fun field => some field.2) ++ missing.map fun _ => none) := by
  induction fields with
  | nil =>
      induction missing with
      | nil => rfl
      | cons name rest induction =>
          have others := induction (List.nodup_cons.mp distinct).2
          rw [List.map_nil, List.nil_append, slots?] at others ⊢
          rw [List.mapM_cons, others]
          rfl
  | cons field rest induction =>
      obtain ⟨name, value⟩ := field
      rw [List.map_cons, List.cons_append, List.nodup_cons] at distinct
      have absent : name ∉ rest.map (·.1) := fun member =>
        distinct.1 (List.mem_append_left _ member)
      have here : valuesOf name ((name, value) :: rest) = [value] := by
        have nothing := valuesOf_of_notMem absent
        rw [valuesOf] at nothing ⊢
        simp [nothing]
      have skipped := slots?_cons_of_notMem distinct.1 value rest
      rw [induction distinct.2, slots?] at skipped
      rw [List.map_cons, List.cons_append, slots?, List.mapM_cons, here, skipped]
      rfl

theorem record?_source {names : List String} {fields : List (String × Json)}
    (missing : List String) (inOrder : fields.map (·.1) ++ missing = names)
    (distinct : names.Nodup) :
    (source (.object fields)).record? names =
      some (fields.map (fun field => some (source field.2)) ++ missing.map fun _ => none) := by
  subst inOrder
  have sameNames : (fields.map fun field => (field.1, source field.2)).map (·.1) =
      fields.map (·.1) := by
    rw [List.map_map]
    rfl
  rw [← sameNames] at distinct ⊢
  rw [source, Source.record?, namedFields?_source, Option.bind_some,
    slots?_append _ missing distinct, List.map_map]
  rfl

end GameExport.Json
