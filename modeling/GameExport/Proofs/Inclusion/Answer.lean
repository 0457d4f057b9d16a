import GameExport.Proofs.Inclusion.Reachability

/-! # What a unit needs is what it reaches

Main statement: a unit has no answer if it is not declared, the answer of a cycle if one can be
reached from it, and otherwise exactly the units that it reaches, with those sheets marked that it
reaches through a link inside an event.
-/

namespace GameExport

open Relation (TransGen)

namespace Requirements

def Holds (requirements : Requirements) : UnitName → Prop
  | .scene name => name ∈ requirements.scenes
  | .externalEvents name => name ∈ requirements.externalEvents
  | .sourceFile name => name ∈ requirements.sourceFiles

theorem holds_add {requirements : Requirements} {step : UnitName × Bool} {unit : UnitName} :
    (requirements.add step).Holds unit ↔ requirements.Holds unit ∨ unit = step.1 := by
  obtain ⟨added, atTop⟩ := step
  cases added <;> cases atTop <;> cases unit <;>
    simp [add, Holds, NameSet.mem_insert, or_comm]

theorem mem_nested_add {requirements : Requirements} {step : UnitName × Bool} {name : String} :
    name ∈ (requirements.add step).nestedExternalEvents ↔
      name ∈ requirements.nestedExternalEvents ∨ step = (.externalEvents name, false) := by
  obtain ⟨added, atTop⟩ := step
  cases added <;> cases atTop <;> simp [add, NameSet.mem_insert, or_comm, eq_comm]

theorem holds_foldl_add {steps : List (UnitName × Bool)} {requirements : Requirements}
    {unit : UnitName} :
    (steps.foldl add requirements).Holds unit ↔
      requirements.Holds unit ∨ ∃ atTop, (unit, atTop) ∈ steps := by
  induction steps generalizing requirements with
  | nil => simp
  | cons step rest induction =>
      obtain ⟨added, top⟩ := step
      rw [List.foldl_cons, induction, holds_add]
      constructor
      · rintro ((held | rfl) | ⟨atTop, member⟩)
        · exact .inl held
        · exact .inr ⟨top, List.mem_cons_self⟩
        · exact .inr ⟨atTop, List.mem_cons_of_mem _ member⟩
      · rintro (held | ⟨atTop, member⟩)
        · exact .inl (.inl held)
        · rcases List.mem_cons.mp member with same | member
          · exact .inl (.inr (congrArg Prod.fst same))
          · exact .inr ⟨atTop, member⟩

theorem mem_nested_foldl_add {steps : List (UnitName × Bool)} {requirements : Requirements}
    {name : String} :
    name ∈ (steps.foldl add requirements).nestedExternalEvents ↔
      name ∈ requirements.nestedExternalEvents ∨ (.externalEvents name, false) ∈ steps := by
  induction steps generalizing requirements with
  | nil => simp
  | cons step rest induction =>
      rw [List.foldl_cons, induction, mem_nested_add, or_assoc, List.mem_cons, eq_comm]

theorem not_holds_none (unit : UnitName) : ¬ none.Holds unit := by
  cases unit <;> simp [none, Holds, NameSet.mem_def, NameSet.empty]

end Requirements

namespace Project

variable {project : Project} {unit : UnitName}

/-- The texts are the sorted names of all units on the cycle of a unit. -/
def NamesCycle (project : Project) (member : UnitName) (texts : List String) : Prop :=
  ∃ members : List UnitName, members.Nodup ∧
    (∀ other, other ∈ members ↔ project.ShareCycle member other) ∧
    texts.Perm (members.map UnitName.display) ∧ texts.Pairwise (· ≤ ·)

def Acyclic (project : Project) (unit : UnitName) : Prop :=
  ∀ member, project.Reaches unit member → ¬ project.OnCycle member

theorem needs_eq_answer (declared : project.Declares unit) :
    project.inclusionAnalysis.needs unit =
      project.inclusionGraph.answer project.inclusionGraph.cycles unit := by
  unfold InclusionAnalysis.needs
  change (((project.inclusionGraph.units.map fun unit => (unit, _)).lookup unit).getD _) = _
  rw [lookup_map_key, if_pos (mem_units.mpr declared), Option.getD_some]

theorem needs_of_not_declares (undeclared : ¬ project.Declares unit) :
    project.inclusionAnalysis.needs unit = .error (.unknown unit) := by
  unfold InclusionAnalysis.needs
  change (((project.inclusionGraph.units.map fun unit => (unit, _)).lookup unit).getD _) = _
  rw [lookup_map_key, if_neg (mt mem_units.mp undeclared), Option.getD_none]

theorem acyclic_of_not_declares (undeclared : ¬ project.Declares unit) : project.Acyclic unit := by
  intro member reaches cyclic
  rcases Relation.reflTransGen_iff_eq_or_transGen.mp reaches with rfl | chain
  · exact undeclared (declares_of_transGen cyclic).1
  · exact undeclared (declares_of_transGen chain).1

theorem namesCycle_mergeSort {members : List UnitName} {member : UnitName}
    (unique : members.Nodup)
    (complete : ∀ other, other ∈ members ↔ project.ShareCycle member other) :
    project.NamesCycle member
      ((members.map UnitName.display).mergeSort fun left right => decide (left ≤ right)) := by
  have transitive (first second third : String) :
      decide (first ≤ second) = true → decide (second ≤ third) = true →
        decide (first ≤ third) = true := by
    simpa using fun firstLe secondLe => String.le_trans firstLe secondLe
  have total (left right : String) : (decide (left ≤ right) || decide (right ≤ left)) = true := by
    simpa using String.le_total left right
  refine ⟨members, unique, complete, List.mergeSort_perm _ _, ?_⟩
  exact (List.pairwise_mergeSort transitive total _).imp of_decide_eq_true

theorem answer_cyclic (declared : project.Declares unit) (cyclic : ¬ project.Acyclic unit) :
    ∃ member texts, project.Reaches unit member ∧ project.OnCycle member ∧
      project.NamesCycle member texts ∧
      project.inclusionGraph.answer project.inclusionGraph.cycles unit =
        .error (.cyclic unit texts) := by
  unfold InclusionGraph.answer
  dsimp only
  split
  · rename_i members found
    obtain ⟨⟨member, atTop⟩, met, found⟩ := List.exists_of_findSome?_eq_some found
    obtain ⟨onCycle, unique, complete⟩ := lookup_cycles_eq_some found
    exact ⟨member, _, (exists_mem_trail declared).mp ⟨atTop, met⟩, onCycle,
      namesCycle_mergeSort unique complete, rfl⟩
  · rename_i absent
    refine absurd (fun member reaches => ?_) cyclic
    obtain ⟨atTop, met⟩ := (exists_mem_trail declared).mpr reaches
    exact lookup_cycles_eq_none.mp (List.findSome?_eq_none_iff.mp absent _ met)

theorem answer_acyclic (declared : project.Declares unit) (acyclic : project.Acyclic unit) :
    project.inclusionGraph.answer project.inclusionGraph.cycles unit =
      .ok (((project.inclusionGraph.trail unit).filter fun step => step.1 != unit).foldl
        Requirements.add Requirements.none) := by
  unfold InclusionGraph.answer
  dsimp only
  split
  · rename_i members found
    obtain ⟨⟨member, atTop⟩, met, found⟩ := List.exists_of_findSome?_eq_some found
    exact absurd (lookup_cycles_eq_some found).1
      (acyclic member ((exists_mem_trail declared).mp ⟨atTop, met⟩))
  · rfl

theorem holds_answer (declared : project.Declares unit) {other : UnitName} :
    (((project.inclusionGraph.trail unit).filter fun step => step.1 != unit).foldl
      Requirements.add Requirements.none).Holds other ↔
      project.Reaches unit other ∧ other ≠ unit := by
  rw [Requirements.holds_foldl_add, ← exists_mem_trail declared]
  simp [Requirements.not_holds_none]

theorem mem_nested_answer (declared : project.Declares unit) (acyclic : project.Acyclic unit)
    {name : String} :
    name ∈ (((project.inclusionGraph.trail unit).filter fun step => step.1 != unit).foldl
      Requirements.add Requirements.none).nestedExternalEvents ↔
      project.ReachesNested unit (.externalEvents name) := by
  have different (nested : project.ReachesNested unit (.externalEvents name)) :
      .externalEvents name ≠ unit := by
    rintro rfl
    obtain ⟨including, included, before, link, after⟩ := nested
    exact acyclic _ .refl ((TransGen.tail' before ⟨false, link⟩).trans_left after)
  have nothing : name ∉ Requirements.none.nestedExternalEvents := by
    simp [Requirements.none, NameSet.mem_def, NameSet.empty]
  rw [Requirements.mem_nested_foldl_add, List.mem_filter, mem_trail_false declared]
  simp only [nothing, false_or, bne_iff_ne]
  exact ⟨And.left, fun nested => ⟨nested, different nested⟩⟩

/-- A unit with an answer is declared, reaches no cycle, and is given what it reaches. -/
theorem of_needs_eq_ok {requirements : Requirements}
    (answered : project.inclusionAnalysis.needs unit = .ok requirements) :
    project.Declares unit ∧ project.Acyclic unit ∧
      ∀ other, requirements.Holds other ↔ project.Reaches unit other ∧ other ≠ unit := by
  by_cases declared : project.Declares unit
  · rw [needs_eq_answer declared] at answered
    by_cases acyclic : project.Acyclic unit
    · rw [answer_acyclic declared acyclic, Except.ok.injEq] at answered
      subst answered
      exact ⟨declared, acyclic, fun other => holds_answer declared⟩
    · rcases answer_cyclic declared acyclic with ⟨member, texts, _, _, _, answer⟩
      rw [answer] at answered
      cases answered
  · rw [needs_of_not_declares declared] at answered
    cases answered

/-- The answer for a unit agrees with the relation of inclusion: it is unknown if it is not
declared; it is refused, with the sorted names of one whole cycle, if a cycle can be reached; and
otherwise it is given exactly the units that it reaches, itself left out. -/
theorem needs_agrees_with_relation (project : Project) (unit : UnitName) :
    (project.inclusionAnalysis.needs unit = .error (.unknown unit) ↔ ¬ project.Declares unit) ∧
    ((∃ texts, project.inclusionAnalysis.needs unit = .error (.cyclic unit texts)) ↔
      ∃ member, project.Reaches unit member ∧ project.OnCycle member) ∧
    (∀ texts, project.inclusionAnalysis.needs unit = .error (.cyclic unit texts) →
      ∃ member, project.Reaches unit member ∧ project.OnCycle member ∧
        project.NamesCycle member texts) ∧
    ((∃ requirements, project.inclusionAnalysis.needs unit = .ok requirements) ↔
      project.Declares unit ∧ project.Acyclic unit) ∧
    (∀ requirements, project.inclusionAnalysis.needs unit = .ok requirements →
      (∀ other, requirements.Holds other ↔ project.Reaches unit other ∧ other ≠ unit) ∧
      ∀ name, name ∈ requirements.nestedExternalEvents ↔
        project.ReachesNested unit (.externalEvents name)) := by
  by_cases declared : project.Declares unit
  · rw [needs_eq_answer declared]
    by_cases acyclic : project.Acyclic unit
    · have noCycle : ¬ ∃ member, project.Reaches unit member ∧ project.OnCycle member :=
        fun ⟨member, reaches, cyclic⟩ => acyclic member reaches cyclic
      rw [answer_acyclic declared acyclic]
      simp only [reduceCtorEq, declared, not_true, exists_false, noCycle, false_implies,
        implies_true, true_and, acyclic, and_true, iff_true, Except.ok.injEq]
      refine ⟨⟨_, rfl⟩, ?_⟩
      rintro requirements rfl
      exact ⟨fun other => holds_answer declared, fun name => mem_nested_answer declared acyclic⟩
    · obtain ⟨member, texts, reaches, cyclic, names, answer⟩ := answer_cyclic declared acyclic
      rw [answer]
      simp only [Except.error.injEq, reduceCtorEq, declared, not_true, InclusionError.cyclic.injEq,
        true_and, exists_false, acyclic, and_false, false_implies, implies_true, and_true]
      refine ⟨⟨fun _ => ⟨member, reaches, cyclic⟩, fun _ => ⟨texts, rfl⟩⟩, ?_⟩
      rintro _ rfl
      exact ⟨member, reaches, cyclic, names⟩
  · have acyclic := acyclic_of_not_declares declared
    have noCycle : ¬ ∃ member, project.Reaches unit member ∧ project.OnCycle member :=
      fun ⟨member, reaches, cyclic⟩ => acyclic member reaches cyclic
    rw [needs_of_not_declares declared]
    simp [declared, noCycle]

end Project

end GameExport
