import GameExport.Project.Document
import GameExport.Proofs.Json.Nesting

/-! # Reading back events

An event stands in a document as an object that begins with its kind. Main statement: an event
is read back from what is written of it, whatever tree of events it is, if there is room for it.
-/

namespace GameExport

open Json

/-! ## Instructions -/

theorem Argument.decode_source (argument : Argument) {room : Nat}
    (shallow : depth argument.toJson ≤ room) :
    decode room (source argument.toJson) = some argument := by
  cases argument
  all_goals
    obtain ⟨room, rfl, -⟩ := exists_room_of_object shallow
    simp [toJson, decode, source, sourceFields, text?_symbolsOf, Decoder.text]

theorem Argument.whole_toJson (argument : Argument) : whole argument.toJson = true := by
  cases argument <;> rfl

theorem Instruction.decode_source (instruction : Instruction) {room : Nat}
    (shallow : depth instruction.toJson ≤ room) :
    decode room (source instruction.toJson) = some instruction := by
  obtain ⟨room, rfl, fields⟩ := exists_room_of_object shallow
  obtain ⟨room, rfl, arguments⟩ :=
    exists_room_of_array (fields ("args", _) (List.mem_cons_of_mem _ List.mem_cons_self))
  have each : ∀ argument ∈ instruction.arguments,
      Argument.decode room (source argument.toJson) = some argument := by
    intro argument member
    exact argument.decode_source (arguments _ (List.mem_map_of_mem member))
  rw [toJson, decode, record?_source []]
  · simp [fieldOr, Decoder.list_source each]
  · rfl
  · decide

theorem Instruction.whole_toJson (instruction : Instruction) :
    whole instruction.toJson = true := by
  have arguments := wholeItems_map fun argument (_ : argument ∈ instruction.arguments) =>
    argument.whole_toJson
  simp [toJson, whole, wholeFields, arguments]

/-! ## Kinds and fields of events -/

namespace EventKind

theorem decode_name (inner : Bool) (kind : EventKind) :
    decode inner (source (.string kind.name)) = some kind := by
  rw [source, decode, text?_symbolsOf]
  cases kind <;> rfl

theorem kindField_notMem (kind : EventKind) : Event.kindField ∉ kind.fields := by
  cases kind <;> decide

theorem nodup_fields (kind : EventKind) : kind.fields.Nodup := by
  cases kind <;> decide

end EventKind

namespace Event

def kind : Event → EventKind
  | .standard _ _ => .standard
  | .link _ => .link
  | .code _ _ _ => .code
  | .comment _ => .comment

def fields : Event → List (String × Json)
  | .standard instructions subEvents =>
      [("instructions", .array (instructions.map Instruction.toJson)),
        ("sub_events", .array (listToJson subEvents))]
  | .link target => [("target", .string target)]
  | .code text dependencies subEvents =>
      [("code", .string text), ("dependencies", strings dependencies),
        ("sub_events", .array (listToJson subEvents))]
  | .comment text => [("text", .string text)]

theorem toJson_eq (event : Event) :
    event.toJson = .object ((kindField, .string event.kind.name) :: event.fields) := by
  cases event <;> rfl

theorem names_fields (event : Event) : event.fields.map (·.1) = event.kind.fields := by
  cases event <;> rfl

theorem parts?_source (inner : Bool) (event : Event) :
    parts? inner (source event.toJson) =
      some (event.kind, event.fields.map fun field => some (source field.2)) := by
  let fields := event.fields.map fun field => (field.1, source field.2)
  have names : fields.map (·.1) = event.kind.fields := by
    rw [← names_fields, List.map_map]
    rfl
  have absent : kindField ∉ fields.map (·.1) := names ▸ event.kind.kindField_notMem
  have kinds : valuesOf kindField ((kindField, source (.string event.kind.name)) :: fields) =
      [source (.string event.kind.name)] := by
    have nothing := valuesOf_of_notMem absent
    rw [valuesOf] at nothing ⊢
    simp [nothing]
  have others : ((kindField, source (.string event.kind.name)) :: fields).filter
      (fun field => field.1 != kindField) = fields := by
    rw [List.filter_cons_of_neg (by simp), List.filter_eq_self]
    intro field member
    exact bne_iff_ne.mpr fun same => absent (same ▸ List.mem_map_of_mem member)
  have slots := slots?_append fields [] (by simpa [names] using event.kind.nodup_fields)
  rw [List.append_nil, names, List.map_nil, List.append_nil, List.map_map] at slots
  rw [toJson_eq, source, parts?, namedFields?_source]
  simp only [List.map_cons, Option.bind_eq_bind, Option.bind_some]
  rw [kinds, others]
  simp only [EventKind.decode_name, Option.bind_some, slots]
  rfl

/-! ## Trees of events -/

theorem listToJson_eq_map (events : List Event) : listToJson events = events.map toJson := by
  induction events with
  | nil => rfl
  | cons event rest induction => rw [listToJson, induction, List.map_cons]

theorem depth_listToJson_le {events : List Event} {room : Nat}
    (shallow : depth (.array (listToJson events)) ≤ room + 1) :
    ∀ event ∈ events, depth event.toJson ≤ room := by
  rw [listToJson_eq_map, depth_array_le] at shallow
  exact fun event member => shallow _ (List.mem_map_of_mem member)

theorem source_listToJson (events : List Event) :
    source (.array (listToJson events)) = .array (sourceItems (listToJson events)) := by
  rw [source]

theorem mapM_sourceItems {decode : Source → Option Event} {events : List Event}
    (each : ∀ event ∈ events, decode (source event.toJson) = some event) :
    (sourceItems (listToJson events)).mapM decode = some events := by
  rw [listToJson_eq_map, sourceItems_eq_map, List.map_map]
  exact mapM_map_eq_some each

theorem decodeReadable_source {room : Nat} (inner : Bool) (event : Event)
    (shallow : depth event.toJson ≤ room) :
    decodeReadable inner room (source event.toJson) = some event := by
  -- The events below stand in an array of the event's object, so they have two levels less.
  induction room using Nat.strongRecOn generalizing inner event with
  | ind room induction =>
      rw [toJson_eq] at shallow
      obtain ⟨room, rfl, inside⟩ := exists_room_of_object shallow
      have inside := (List.forall_mem_cons.mp inside).2
      rw [decodeReadable, parts?_source]
      cases event with
      | standard instructions subEvents =>
          simp only [fields, List.forall_mem_cons] at inside
          obtain ⟨room, rfl, ofInstructions⟩ := exists_room_of_array inside.1
          have below := mapM_sourceItems fun event member => induction room (by omega) true event
            (depth_listToJson_le inside.2.1 event member)
          have here : Decoder.list Instruction.decode (room + 1)
              (source (.array (instructions.map Instruction.toJson))) = some instructions :=
            Decoder.list_source fun instruction member =>
              instruction.decode_source (ofInstructions _ (List.mem_map_of_mem member))
          simp [kind, fields, fieldOr, here, source_listToJson, below]
      | link target => simp [kind, fields, fieldRequired]
      | code text dependencies subEvents =>
          simp only [fields, List.forall_mem_cons] at inside
          obtain ⟨room, rfl, -⟩ := exists_room_of_array inside.2.1
          have below := mapM_sourceItems fun event member => induction room (by omega) true event
            (depth_listToJson_le inside.2.2.1 event member)
          simp [kind, fields, fieldOr, source_listToJson, below]
      | comment text => simp [kind, fields, fieldOr]

mutual
theorem whole_toJson : ∀ event : Event, whole event.toJson = true
  | .standard instructions subEvents => by
      have here := wholeItems_map fun instruction (_ : instruction ∈ instructions) =>
        instruction.whole_toJson
      simp [toJson, whole, wholeFields, here, whole_listToJson subEvents]
  | .link _ => rfl
  | .code _ dependencies subEvents => by
      simp [toJson, whole, wholeFields, whole_strings, whole_listToJson subEvents]
  | .comment _ => rfl

theorem whole_listToJson : ∀ events : List Event, wholeItems (listToJson events) = true
  | [] => rfl
  | event :: rest => by
      rw [listToJson, wholeItems, whole_toJson event, whole_listToJson rest]
      rfl
end

/-- An event is read back if there is room for it, also where its kind is not known before. -/
theorem decode_source (event : Event) {room : Nat} (shallow : depth event.toJson ≤ room) :
    decode room (source event.toJson) = some event := by
  rw [decode, value?_source event.whole_toJson shallow]
  exact decodeReadable_source false event shallow

theorem list_decode_source {events : List Event} {room : Nat}
    (shallow : depth (.array (listToJson events)) ≤ room) :
    Decoder.list decode room (source (.array (listToJson events))) = some events := by
  obtain ⟨room, rfl, -⟩ := exists_room_of_array shallow
  exact mapM_sourceItems fun event member =>
    event.decode_source (depth_listToJson_le shallow event member)

end Event

end GameExport
