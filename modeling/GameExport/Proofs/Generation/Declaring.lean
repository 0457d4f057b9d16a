import GameExport.Proofs.Generation.Writing
import GameExport.Proofs.Unit.Stems
import Mathlib.Data.List.Nodup

/-! # What a source declares

A source calls functions that other objects define. Main statement: before the function that it
defines a source declares each function that it calls, once, and no other one.
-/

namespace GameExport.Generation.Source

/-- The calls of a sheet among the statements of a source. -/
def Calls (code : Source) (sheet : String) : Prop := .enter sheet ∈ code.body.map Placed.statement

def declarations (code : Source) : List Prototype := code.calls.toList.map declared

def heading (code : Source) : String :=
  s!"// Events of {code.unit.display} in project '{code.projectName}'.\n" ++
    "#include \"GDCpp/Runtime/RuntimeContext.h\"\n\n"

def definition (code : Source) : String :=
  code.defined.text ++ "\n\x7b\n" ++ String.ofList (code.body.flatMap Placed.text) ++ "\x7d\n"

/-- A source declares each function that it calls, once and before its own, and no other one. -/
structure DeclaresCalls (code : Source) : Prop where
  text : code.text = code.heading ++
    String.join (code.declarations.map fun prototype => prototype.text ++ ";\n") ++
    (if code.declarations.isEmpty then "" else "\n") ++ code.definition
  once : ∀ sheet, code.Calls sheet →
    (code.declarations.map Prototype.symbol).count (UnitName.externalEvents sheet).entrySymbol = 1
  only : ∀ prototype ∈ code.declarations, ∃ sheet, code.Calls sheet ∧ prototype = declared sheet

variable {code : Source} {sheet : String}

theorem mem_calls : sheet ∈ code.calls.toList ↔ code.Calls sheet := by
  rw [← NameSet.mem_def, calls, NameSet.mem_ofList, List.mem_filterMap, Calls, List.mem_map]
  constructor
  · rintro ⟨placed, member, same⟩
    cases statement : placed.statement with
    | enter other =>
        rw [statement, Option.some.injEq] at same
        exact ⟨placed, member, same ▸ statement⟩
    | _ => simp [statement] at same
  · rintro ⟨placed, member, same⟩
    exact ⟨placed, member, by rw [same]⟩

theorem nodup_symbols (code : Source) : (code.declarations.map Prototype.symbol).Nodup := by
  have distinct : code.calls.toList.Nodup := by
    refine code.calls.increasing.imp ?_
    intro left right smaller same
    exact String.lt_irrefl right (same ▸ smaller)
  rw [declarations, List.map_map]
  refine distinct.map ?_
  intro left right same
  exact UnitName.externalEvents.inj (UnitName.entrySymbol_injective same)

theorem text_eq (code : Source) : code.text = code.heading ++
    String.join (code.declarations.map fun prototype => prototype.text ++ ";\n") ++
    (if code.declarations.isEmpty then "" else "\n") ++ code.definition := by
  unfold text heading declarations definition
  simp only [List.map_map, List.isEmpty_map, Function.comp_def, String.append_assoc]

theorem declaresCalls (code : Source) : code.DeclaresCalls where
  text := code.text_eq
  once := by
    intro sheet called
    have declares : (UnitName.externalEvents sheet).entrySymbol ∈
        code.declarations.map Prototype.symbol := by
      rw [declarations, List.map_map]
      exact List.mem_map_of_mem (f := Prototype.symbol ∘ declared) (mem_calls.mpr called)
    exact List.count_eq_one_of_mem code.nodup_symbols declares
  only := by
    intro prototype member
    rcases List.mem_map.mp member with ⟨sheet, called, same⟩
    exact ⟨sheet, mem_calls.mp called, same.symm⟩

end GameExport.Generation.Source
