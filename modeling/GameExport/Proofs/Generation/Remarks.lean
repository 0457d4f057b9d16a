import GameExport.Proofs.Generation.Writing
import GameExport.Proofs.Inclusion.Outline

/-! # Remarks

The name of a project, comments and links that lead nowhere leave remarks in generated code. Main
statement: without what it remarks, a project is written as the same source without the statements
that remark it.
-/

namespace GameExport

section

variable (project : Project)

mutual
/-- An event without what it remarks, where the links of a project are followed. -/
def Event.withoutRemarks : Event → Event
  | .standard instructions subEvents => .standard instructions (withoutRemarksIn subEvents)
  | .link target => if (project.linked? target).isSome then .link target else .comment ""
  | .code text dependencies subEvents => .code text dependencies (withoutRemarksIn subEvents)
  | .comment _ => .comment ""

def withoutRemarksIn : List Event → List Event
  | [] => []
  | event :: rest => event.withoutRemarks :: withoutRemarksIn rest
end

def Project.withoutRemarks : Project :=
  { project with
    name := ""
    scenes := project.scenes.map fun scene =>
      { scene with events := withoutRemarksIn project scene.events }
    externalEvents := project.externalEvents.map fun sheet =>
      { sheet with events := withoutRemarksIn project sheet.events } }

end

/-- Two projects differ in their names, in the texts of comments and in the targets of links that
lead nowhere, and in nothing else. -/
def Project.Alike (project other : Project) : Prop :=
  project.withoutRemarks = other.withoutRemarks

variable {project : Project}

theorem isEmpty_withoutRemarksIn (events : List Event) :
    (withoutRemarksIn project events).isEmpty = events.isEmpty := by
  cases events <;> rfl

namespace Project

theorem linked?_withoutRemarks (project : Project) (target : String) :
    project.withoutRemarks.linked? target = project.linked? target := by
  have sheets : (project.withoutRemarks.sheet? target).isSome = (project.sheet? target).isSome := by
    simp [isSome_sheet?, withoutRemarks, Function.comp_def]
  have scenes : (project.withoutRemarks.scene? target).isSome = (project.scene? target).isSome := by
    simp [isSome_scene?, withoutRemarks, Function.comp_def]
  rw [linked?, linked?, sheets, scenes]

theorem events?_withoutRemarks (project : Project) (unit : UnitName) :
    project.withoutRemarks.events? unit =
      (project.events? unit).map (withoutRemarksIn project) := by
  cases unit with
  | scene name =>
      simp [events?, scene?, withoutRemarks, List.find?_map, Function.comp_def]
  | externalEvents name =>
      simp [events?, sheet?, withoutRemarks, List.find?_map, Function.comp_def]
  | sourceFile name => rfl

end Project

namespace Generation

def isCode : Statement → Bool
  | .comment _ | .unknownLink _ => false
  | _ => true

def becomesCode (project : Project) : Item → Bool
  | .statement statement => isCode statement
  | .link target => (project.linked? target).isSome

theorem sheetUnits_withoutRemarks (project : Project) :
    sheetUnits project.withoutRemarks = sheetUnits project := by
  simp [sheetUnits, Project.sheets, Project.withoutRemarks, Function.comp_def]

theorem eventsOf_withoutRemarks (project : Project) (unit : UnitName) :
    eventsOf project.withoutRemarks unit = withoutRemarksIn project (eventsOf project unit) := by
  rw [eventsOf, eventsOf, Project.events?_withoutRemarks]
  cases project.events? unit <;> rfl

def codeItems (project : Project) (items : List PlacedItem) : List PlacedItem :=
  items.filter (becomesCode project ·.2)

theorem codeItems_append (project : Project) (front back : List PlacedItem) :
    codeItems project (front ++ back) = codeItems project front ++ codeItems project back :=
  List.filter_append ..

theorem codeItems_map {α : Type} (project : Project) (depth : Nat) (write : α → Statement)
    (areCode : ∀ value, isCode (write value) = true) (values : List α) :
    codeItems project (values.map fun value => placed depth (write value)) =
      values.map fun value => placed depth (write value) :=
  List.filter_eq_self.mpr (by simp [placed, becomesCode, areCode])

theorem codeItems_block (project : Project) (depth : Nat) (isEmpty : Bool)
    (inner : List PlacedItem) :
    codeItems project (block depth isEmpty inner) =
      block depth isEmpty (codeItems project inner) := by
  cases isEmpty with
  | true => rfl
  | false => simp [codeItems, block, placed, becomesCode, isCode]

mutual
theorem layout_withoutRemarks : ∀ (depth : Nat) (event : Event),
    layout depth (event.withoutRemarks project) = codeItems project (layout depth event)
  | depth, .standard instructions subEvents => by
      have below := layoutAll_withoutRemarks (depth + 2) subEvents
      have performs := codeItems_map project (depth + 1) .perform (fun _ => rfl) instructions
      rw [Event.withoutRemarks, layout, layout, isEmpty_withoutRemarksIn, below, codeItems_append,
        codeItems_append, ← List.singleton_append, codeItems_append, performs, codeItems_block]
      rfl
  | depth, .link target => by
      cases known : project.linked? target <;>
        simp [Event.withoutRemarks, layout, codeItems, becomesCode, known, Text.lines]
  | depth, .code text dependencies subEvents => by
      have below := layoutAll_withoutRemarks (depth + 1) subEvents
      have natives := codeItems_map project depth .native (fun _ => rfl)
        (Text.lines text.toList)
      rw [Event.withoutRemarks, layout, layout, isEmpty_withoutRemarksIn, below, codeItems_append,
        natives, codeItems_block]
  | depth, .comment text => by
      simp [Event.withoutRemarks, layout, codeItems, placed, becomesCode, isCode, List.filter_map,
        Function.comp_def, Text.lines]

theorem layoutAll_withoutRemarks : ∀ (depth : Nat) (events : List Event),
    layoutAll depth (withoutRemarksIn project events) =
      codeItems project (layoutAll depth events)
  | depth, [] => rfl
  | depth, event :: rest => by
      rw [withoutRemarksIn, layoutAll, layoutAll, codeItems_append,
        layout_withoutRemarks depth event, layoutAll_withoutRemarks depth rest]
end

theorem codeItems_statement (project : Project) (depth : Nat) {statement : Statement}
    (code : isCode statement = true) (rest : List PlacedItem) :
    codeItems project ((depth, .statement statement) :: rest) =
      (depth, .statement statement) :: codeItems project rest :=
  List.filter_cons_of_pos code

theorem codeItems_remark (project : Project) (depth : Nat) {statement : Statement}
    (remark : isCode statement = false) (rest : List PlacedItem) :
    codeItems project ((depth, .statement statement) :: rest) = codeItems project rest :=
  List.filter_cons_of_neg (by simp [becomesCode, remark])

theorem codeItems_link {target : String} {unit : UnitName}
    (leads : project.linked? target = some unit) (depth : Nat) (rest : List PlacedItem) :
    codeItems project ((depth, .link target) :: rest) =
      (depth, .link target) :: codeItems project rest :=
  List.filter_cons_of_pos (by simp [becomesCode, leads])

theorem codeItems_unknown {target : String} (nothing : project.linked? target = none)
    (depth : Nat) (rest : List PlacedItem) :
    codeItems project ((depth, .link target) :: rest) = codeItems project rest :=
  List.filter_cons_of_neg (by simp [becomesCode, nothing])

def codeLines (body : List Placed) : List Placed := body.filter (isCode ·.statement)

theorem codeLines_cons {placed : Placed} (code : isCode placed.statement = true)
    (body : List Placed) : codeLines (placed :: body) = placed :: codeLines body :=
  List.filter_cons_of_pos code

theorem codeLines_remark {placed : Placed} (remark : isCode placed.statement = false)
    (body : List Placed) : codeLines (placed :: body) = codeLines body :=
  List.filter_cons_of_neg (by simp [remark])

theorem codeLines_append (front back : List Placed) :
    codeLines (front ++ back) = codeLines front ++ codeLines back :=
  List.filter_append ..

/-- What becomes code is expanded to the lines that are not remarks. -/
theorem expand_withoutRemarks (project : Project) (compiled : NameSet) (writing : UnitName)
    (unopened : List UnitName) (items : List PlacedItem) :
    expand project.withoutRemarks compiled writing unopened (codeItems project items) =
      (expand project compiled writing unopened items).map codeLines := by
  fun_induction expand project compiled writing unopened items with
  | case1 unopened =>
      rw [codeItems, List.filter_nil, expand]
      rfl
  | case2 unopened depth statement rest induction =>
      cases code : isCode statement with
      | true =>
          rw [codeItems_statement project depth code, expand, induction]
          cases expand project compiled writing unopened rest with
          | error error => rfl
          | ok body => exact congrArg Except.ok (codeLines_cons code body).symm
      | false =>
          rw [codeItems_remark project depth code, induction]
          cases expand project compiled writing unopened rest with
          | error error => rfl
          | ok body => exact congrArg Except.ok (codeLines_remark code body).symm
  | case3 unopened depth target rest nothing induction =>
      rw [codeItems_unknown nothing, induction]
      cases expand project compiled writing unopened rest with
      | error error => rfl
      | ok body => rfl
  | case4 unopened depth target rest unit leads called induction =>
      rw [codeItems_link leads, expand, Project.linked?_withoutRemarks, leads]
      simp only [called, if_true, induction]
      cases expand project compiled writing unopened rest with
      | error error => rfl
      | ok body => rfl
  | case5 unopened depth target rest unit leads notCalled free inner outer =>
      rw [codeItems_link leads, expand, Project.linked?_withoutRemarks, leads]
      simp only [notCalled, free, if_true, eventsOf_withoutRemarks, layoutAll_withoutRemarks,
        inner, outer]
      cases expand project compiled writing (without unopened unit)
          (layoutAll depth (eventsOf project unit)) with
      | error error => rfl
      | ok within =>
          cases expand project compiled writing unopened rest with
          | error error => rfl
          | ok after =>
              have whole := codeLines_append (⟨depth, .begin unit⟩ :: within)
                (⟨depth, .finish unit⟩ :: after)
              exact congrArg Except.ok whole.symm
  | case6 unopened depth target rest unit leads notCalled opened =>
      rw [codeItems_link leads, expand, Project.linked?_withoutRemarks, leads]
      simp only [notCalled, opened]
      rfl

def Source.withoutRemarks (code : Source) : Source :=
  { code with projectName := "", body := codeLines code.body }

theorem source_withoutRemarks (project : Project) (compiled : NameSet) (unit : UnitName) :
    source project.withoutRemarks compiled unit =
      (source project compiled unit).map Source.withoutRemarks := by
  have written : body project.withoutRemarks compiled unit =
      (body project compiled unit).map codeLines := by
    rw [body, body, Project.events?_withoutRemarks, sheetUnits_withoutRemarks]
    cases project.events? unit with
    | none => rfl
    | some events =>
        rw [← expand_withoutRemarks, ← layoutAll_withoutRemarks]
        rfl
  rw [source, source, written]
  cases body project compiled unit with
  | error error => rfl
  | ok lines => rfl

end Generation

end GameExport
