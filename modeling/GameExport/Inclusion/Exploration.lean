/-! # Depth-first exploration

The items that can be met from given ones by going from item to item, in the order of a
depth-first search: each item once, what follows an item before what stands beside it.
-/

namespace GameExport

variable {α : Type} [DecidableEq α]

/-- The items met from `pending`, of those that are still `unmet`. Meeting an item takes it
out of the unmet ones, so a search ends however the items are connected. -/
def explore (next : α → List α) (unmet pending : List α) : List α :=
  match pending with
  | [] => []
  | item :: rest =>
      if item ∈ unmet then item :: explore next (unmet.erase item) (next item ++ rest)
      else explore next unmet rest
  termination_by (unmet.length, pending.length)
  decreasing_by
    · rename_i met
      have smaller := List.length_erase_of_mem met
      have positive := List.length_pos_of_mem met
      exact Prod.Lex.left _ _ (by omega)
    · exact Prod.Lex.right _ (by simp)

theorem mem_unmet_of_mem_explore {next : α → List α} {unmet pending : List α} {item : α}
    (met : item ∈ explore next unmet pending) : item ∈ unmet := by
  fun_induction explore next unmet pending with
  | case1 => simp at met
  | case2 unmet first rest found induction =>
      rcases List.mem_cons.mp met with rfl | later
      · exact found
      · exact List.mem_of_mem_erase (induction later)
  | case3 unmet first rest absent induction => exact induction met

end GameExport
