import GameExport.Generation.Statement

/-! # Laying out events

The statements of a forest of events, with the links left in place: what becomes of a link
depends on what it leads to (`Generation.Expansion`).
-/

namespace GameExport.Generation

inductive Item
  | statement (statement : Statement)
  | link (target : String)
  deriving DecidableEq, Repr

/-- An item with its depth. -/
abbrev PlacedItem := Nat × Item

def placed (depth : Nat) (statement : Statement) : PlacedItem := (depth, .statement statement)

/-- Items in a block, if there is anything to put into it. -/
def block (depth : Nat) (isEmpty : Bool) (inner : List PlacedItem) : List PlacedItem :=
  if isEmpty then [] else placed depth .openBlock :: inner ++ [placed depth .closeBlock]

mutual
def layout (depth : Nat) : Event → List PlacedItem
  | .standard instructions subEvents =>
      placed depth .openBlock ::
        instructions.map (fun instruction => placed (depth + 1) (.perform instruction)) ++
        block (depth + 1) subEvents.isEmpty (layoutAll (depth + 2) subEvents) ++
        [placed depth .closeBlock]
  | .link target => [(depth, .link target)]
  | .code text _ subEvents =>
      (Text.lines text.toList).map (fun line => placed depth (.native line)) ++
        block depth subEvents.isEmpty (layoutAll (depth + 1) subEvents)
  | .comment text => (Text.lines text.toList).map fun line => placed depth (.comment line)

def layoutAll (depth : Nat) : List Event → List PlacedItem
  | [] => []
  | event :: rest => layout depth event ++ layoutAll depth rest
end

end GameExport.Generation
