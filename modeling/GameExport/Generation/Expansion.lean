import GameExport.Generation.Layout
import GameExport.Inclusion.Graph
import GameExport.Text.NameSet

/-! # Expanding links

A link to a sheet that is compiled on its own becomes a call; any other link is replaced by
the events it leads to. A unit cannot be written inside itself. The units that may still be
opened are kept while going down, so that expansion ends.
-/

namespace GameExport

inductive GenerationProblem
  | undeclared
  | linksBack (unit : UnitName)
  | other (reason : String)
  deriving DecidableEq, Repr

structure GenerationError where
  unit : UnitName
  problem : GenerationProblem
  deriving DecidableEq, Repr

def GenerationProblem.text : GenerationProblem → String
  | .undeclared => "no such scene or external events"
  | .linksBack unit => s!"{unit.display} links back to itself"
  | .other reason => reason

def GenerationError.message (error : GenerationError) : String :=
  s!"code generation failed for {error.unit.display}: {error.problem.text}"

/-- The events of a scene or a sheet: those of the first one declared by that name. -/
def Project.events? (project : Project) : UnitName → Option (List Event)
  | .scene name => (project.scene? name).map (·.events)
  | .externalEvents name => (project.sheet? name).map (·.events)
  | .sourceFile _ => none

namespace Generation

def eventsOf (project : Project) (unit : UnitName) : List Event :=
  (project.events? unit).getD []

/-- Whether a link becomes a call: it leads to a sheet, other than the one being written, that
is compiled on its own. -/
def isCall (compiled : NameSet) (writing target : UnitName) : Bool :=
  match target with
  | .externalEvents name => decide (name ∈ compiled) && target != writing
  | _ => false

def without (units : List UnitName) (unit : UnitName) : List UnitName :=
  units.filter (· != unit)

theorem length_without_lt {unit : UnitName} {units : List UnitName} (member : unit ∈ units) :
    (without units unit).length < units.length := by
  have some_dropped : ∃ other ∈ units, ¬(other != unit) = true := ⟨unit, member, by simp⟩
  exact List.length_filter_lt_length_iff_exists.mpr some_dropped

/-- The statements of items with every link expanded. The `unopened` units may still be written
in place; all others are being written already. -/
def expand (project : Project) (compiled : NameSet) (writing : UnitName)
    (unopened : List UnitName) (items : List PlacedItem) :
    Except GenerationError (List Placed) :=
  match items with
  | [] => .ok []
  | (depth, .statement statement) :: rest => do
      .ok (⟨depth, statement⟩ :: (← expand project compiled writing unopened rest))
  | (depth, .link target) :: rest =>
      match project.linked? target with
      | none => do
          .ok (⟨depth, .unknownLink target⟩ ::
            (← expand project compiled writing unopened rest))
      | some unit =>
          if isCall compiled writing unit then do
            .ok (⟨depth, .enter target⟩ :: (← expand project compiled writing unopened rest))
          else if unit ∈ unopened then do
            let inner ← expand project compiled writing (without unopened unit)
              (layoutAll depth (eventsOf project unit))
            let after ← expand project compiled writing unopened rest
            .ok (⟨depth, .begin unit⟩ :: inner ++ ⟨depth, .finish unit⟩ :: after)
          else .error ⟨writing, .linksBack unit⟩
  termination_by (unopened.length, items.length)
  decreasing_by
    all_goals first
      | exact Prod.Lex.left _ _ (length_without_lt ‹_›)
      | exact Prod.Lex.right _ (by simp)

def sheetUnits (project : Project) : List UnitName :=
  (project.sheets.map (·.1)).eraseDups

def body (project : Project) (compiled : NameSet) (unit : UnitName) :
    Except GenerationError (List Placed) :=
  match project.events? unit with
  | none => .error ⟨unit, .undeclared⟩
  | some events =>
      expand project compiled unit (without (sheetUnits project) unit) (layoutAll 1 events)

end Generation

end GameExport
