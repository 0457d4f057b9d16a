import GameExport.Inclusion.Analysis
import GameExport.Proofs.Inclusion.Relation

/-! # What a search of the graph meets

A unit reaches another if a chain of inclusions leads from the one to the other. Main statements:
an exploration meets exactly what can be reached, the table of cycles holds exactly the units
that lie on one, and the trail of a unit tells which units it reaches through links at the top
alone and which in another way.
-/

namespace GameExport

open Relation (ReflTransGen TransGen)

/-! ## Exploration -/

section Exploration

variable {α : Type} [DecidableEq α] {next : α → List α}

theorem mem_explore_of_mem_pending {unmet pending : List α} {item : α}
    (waits : item ∈ pending) (free : item ∈ unmet) : item ∈ explore next unmet pending := by
  fun_induction explore next unmet pending with
  | case1 => exact waits
  | case2 unmet first rest found induction =>
      by_cases same : item = first
      · exact same ▸ List.mem_cons_self
      · have waits : item ∈ rest := (List.mem_cons.mp waits).resolve_left same
        exact List.mem_cons_of_mem _ (induction (List.mem_append_right _ waits)
          ((List.mem_erase_of_ne same).mpr free))
  | case3 unmet first rest absent induction =>
      rcases List.mem_cons.mp waits with same | waits
      · exact absurd (same ▸ free) absent
      · exact induction waits free

theorem mem_explore_of_mem_next {unmet pending : List α} {item other : α}
    (met : item ∈ explore next unmet pending) (follows : other ∈ next item)
    (free : other ∈ unmet) : other ∈ explore next unmet pending := by
  fun_induction explore next unmet pending with
  | case1 => simp at met
  | case2 unmet first rest found induction =>
      by_cases same : other = first
      · exact same ▸ List.mem_cons_self
      · have free : other ∈ unmet.erase first := (List.mem_erase_of_ne same).mpr free
        rcases List.mem_cons.mp met with rfl | met
        · exact List.mem_cons_of_mem _
            (mem_explore_of_mem_pending (List.mem_append_left _ follows) free)
        · exact List.mem_cons_of_mem _ (induction met free)
  | case3 unmet first rest absent induction => exact induction met free

theorem reached_of_mem_explore {unmet pending : List α} {item : α}
    (met : item ∈ explore next unmet pending) :
    ∃ seed ∈ pending, ReflTransGen (fun item other => other ∈ next item) seed item := by
  fun_induction explore next unmet pending with
  | case1 => simp at met
  | case2 unmet first rest found induction =>
      rcases List.mem_cons.mp met with rfl | met
      · exact ⟨item, List.mem_cons_self, .refl⟩
      · obtain ⟨seed, waits, chain⟩ := induction met
        rcases List.mem_append.mp waits with follows | waits
        · exact ⟨first, List.mem_cons_self, .head follows chain⟩
        · exact ⟨seed, List.mem_cons_of_mem _ waits, chain⟩
  | case3 unmet first rest absent induction =>
      obtain ⟨seed, waits, chain⟩ := induction met
      exact ⟨seed, List.mem_cons_of_mem _ waits, chain⟩

/-- If nothing outside the unmet items can be reached, an exploration meets exactly what can be
reached from the pending ones. -/
theorem mem_explore {unmet pending : List α} (closed : ∀ item ∈ unmet, next item ⊆ unmet)
    (inside : pending ⊆ unmet) {item : α} :
    item ∈ explore next unmet pending ↔
      ∃ seed ∈ pending, ReflTransGen (fun item other => other ∈ next item) seed item := by
  refine ⟨reached_of_mem_explore, ?_⟩
  rintro ⟨seed, waits, chain⟩
  induction chain with
  | refl => exact mem_explore_of_mem_pending waits (inside waits)
  | tail chain follows induction =>
      exact mem_explore_of_mem_next induction follows
        (closed _ (mem_unmet_of_mem_explore induction) follows)

end Exploration

theorem lookup_map_key {α β : Type} [DecidableEq α] (keys : List α) (value : α → β) (key : α) :
    (keys.map fun key => (key, value key)).lookup key =
      if key ∈ keys then some (value key) else none := by
  induction keys with
  | nil => rfl
  | cons first rest induction =>
      rw [List.map_cons, List.lookup_cons, induction]
      by_cases same : key = first
      · simp [same]
      · simp [same, beq_false_of_ne same]

theorem nodup_eraseDups {α : Type} [DecidableEq α] : ∀ items : List α, items.eraseDups.Nodup
  | [] => by simp
  | item :: rest => by
      rw [List.eraseDups_cons]
      exact List.nodup_cons.mpr ⟨by simp [List.mem_eraseDups], nodup_eraseDups _⟩
  termination_by items => items.length
  decreasing_by exact Nat.lt_succ_of_le (List.length_filter_le _ _)

namespace Project

variable {project : Project} {unit other : UnitName}

/-! ## Chains of inclusions -/

def Reaches (project : Project) (unit other : UnitName) : Prop :=
  ReflTransGen project.Leads unit other

/-- A chain of inclusions with a link inside an event leads from one unit to another. -/
def ReachesNested (project : Project) (unit other : UnitName) : Prop :=
  ∃ including included, project.Reaches unit including ∧
    project.Includes including false included ∧ project.Reaches included other

/-- Two units lie on a common cycle of inclusions, which may be a single unit that links to
itself. -/
def ShareCycle (project : Project) (unit other : UnitName) : Prop :=
  TransGen project.Leads unit other ∧ TransGen project.Leads other unit

def OnCycle (project : Project) (unit : UnitName) : Prop :=
  TransGen project.Leads unit unit

theorem mem_successors :
    other ∈ project.inclusionGraph.successors unit ↔ project.Leads unit other := by
  simp only [InclusionGraph.successors, List.mem_map]
  constructor
  · rintro ⟨⟨included, atTop⟩, member, rfl⟩
    exact ⟨atTop, mem_inclusionsFrom.mp member⟩
  · rintro ⟨atTop, includes⟩
    exact ⟨⟨other, atTop⟩, mem_inclusionsFrom.mpr includes, rfl⟩

theorem mem_reached :
    other ∈ project.inclusionGraph.reached unit ↔ TransGen project.Leads unit other := by
  have inside (unit : UnitName) :
      project.inclusionGraph.successors unit ⊆ project.inclusionGraph.units := by
    intro other follows
    obtain ⟨atTop, includes⟩ := mem_successors.mp follows
    exact mem_units.mpr includes.declares
  rw [InclusionGraph.reached, mem_explore (fun unit _ => inside unit) (inside unit),
    Relation.TransGen.head'_iff]
  simp only [mem_successors]

theorem Leads.declares (leads : project.Leads unit other) :
    project.Declares unit ∧ project.Declares other := by
  obtain ⟨atTop, includes⟩ := leads
  refine ⟨?_, includes.declares⟩
  cases includes with
  | link body stands resolves => exact body.declares
  | code body stands declared => exact body.declares

theorem declares_of_transGen (chain : TransGen project.Leads unit other) :
    project.Declares unit ∧ project.Declares other := by
  obtain ⟨first, leads, _⟩ := Relation.TransGen.head'_iff.mp chain
  obtain ⟨last, _, leadsLast⟩ := Relation.TransGen.tail'_iff.mp chain
  exact ⟨leads.declares.1, leadsLast.declares.2⟩

private def leadsTo (graph : InclusionGraph) (unit other : UnitName) : Bool :=
  (((graph.units.map fun unit => (unit, graph.reached unit)).lookup unit).getD []).contains other

private theorem leadsTo_eq_true :
    leadsTo project.inclusionGraph unit other = true ↔ TransGen project.Leads unit other := by
  rw [leadsTo, lookup_map_key, List.contains_iff_mem]
  by_cases declared : unit ∈ project.inclusionGraph.units
  · simp [declared, mem_reached]
  · simp only [declared, if_false, Option.getD_none, List.not_mem_nil, false_iff]
    exact fun chain => declared (mem_units.mpr (declares_of_transGen chain).1)

private theorem cycles_eq (graph : InclusionGraph) :
    graph.cycles = (graph.units.filter fun unit => leadsTo graph unit unit).map fun unit =>
      (unit,
        graph.units.filter fun other => leadsTo graph unit other && leadsTo graph other unit) :=
  rfl

private theorem lookup_cycles :
    project.inclusionGraph.cycles.lookup unit =
      if leadsTo project.inclusionGraph unit unit then
        some (project.inclusionGraph.units.filter fun other =>
          leadsTo project.inclusionGraph unit other && leadsTo project.inclusionGraph other unit)
      else none := by
  have listed : unit ∈ project.inclusionGraph.units.filter
      (fun unit => leadsTo project.inclusionGraph unit unit) ↔
      leadsTo project.inclusionGraph unit unit = true := by
    refine ⟨fun member => (List.mem_filter.mp member).2, fun cyclic => ?_⟩
    have declared := (declares_of_transGen (leadsTo_eq_true.mp cyclic)).1
    exact List.mem_filter.mpr ⟨mem_units.mpr declared, cyclic⟩
  rw [cycles_eq, lookup_map_key]
  simp only [listed]

theorem lookup_cycles_eq_none :
    project.inclusionGraph.cycles.lookup unit = none ↔ ¬ project.OnCycle unit := by
  rw [lookup_cycles, OnCycle, ← leadsTo_eq_true]
  simp

theorem lookup_cycles_eq_some {members : List UnitName}
    (found : project.inclusionGraph.cycles.lookup unit = some members) :
    project.OnCycle unit ∧ members.Nodup ∧
      ∀ other, other ∈ members ↔ project.ShareCycle unit other := by
  rw [lookup_cycles, Option.ite_none_right_eq_some] at found
  obtain ⟨cyclic, same⟩ := found
  rw [Option.some.injEq] at same
  subst same
  refine ⟨leadsTo_eq_true.mp cyclic, (nodup_eraseDups _).filter _, fun other => ?_⟩
  rw [List.mem_filter, Bool.and_eq_true, leadsTo_eq_true, leadsTo_eq_true, ShareCycle, mem_units]
  exact ⟨And.right, fun share => ⟨(declares_of_transGen share.1).2, share⟩⟩

/-! ## The trail of a unit -/

/-- One step of a trail: an inclusion, and whether all links so far stood at the top. -/
private def Steps (project : Project) (here there : UnitName × Bool) : Prop :=
  ∃ atTop, project.Includes here.1 atTop there.1 ∧ there.2 = (here.2 && atTop)

private theorem mem_trail_steps {step : UnitName × Bool} (declared : project.Declares unit) :
    step ∈ project.inclusionGraph.trail unit ↔
      ReflTransGen (Steps project) (unit, true) step := by
  have steps (here there : UnitName × Bool) :
      there ∈ (project.inclusionGraph.inclusionsFrom here.1).map
        (fun inclusion => (inclusion.unit, here.2 && inclusion.atTop)) ↔
      Steps project here there := by
    simp only [List.mem_map, Steps]
    constructor
    · rintro ⟨⟨other, atTop⟩, member, rfl⟩
      exact ⟨atTop, mem_inclusionsFrom.mp member, rfl⟩
    · rintro ⟨atTop, includes, same⟩
      exact ⟨⟨there.1, atTop⟩, mem_inclusionsFrom.mpr includes, by rw [← same]⟩
  have inside (step : UnitName × Bool) :
      step ∈ project.inclusionGraph.units.flatMap (fun unit => [(unit, true), (unit, false)]) ↔
      project.Declares step.1 := by
    obtain ⟨other, atTop⟩ := step
    cases atTop <;> simp [mem_units]
  have closed : ∀ here ∈ project.inclusionGraph.units.flatMap
        (fun unit => [(unit, true), (unit, false)]),
      (project.inclusionGraph.inclusionsFrom here.1).map
        (fun inclusion => (inclusion.unit, here.2 && inclusion.atTop)) ⊆
      project.inclusionGraph.units.flatMap (fun unit => [(unit, true), (unit, false)]) := by
    intro here _ there follows
    obtain ⟨atTop, includes, _⟩ := (steps here there).mp follows
    exact (inside there).mpr includes.declares
  unfold InclusionGraph.trail
  rw [mem_explore closed (by simpa using (inside (unit, true)).mpr declared)]
  simp [steps]

private theorem reaches_of_steps {here there : UnitName × Bool}
    (chain : ReflTransGen (Steps project) here there) : project.Reaches here.1 there.1 :=
  chain.lift Prod.fst fun _ _ ⟨atTop, includes, _⟩ => ⟨atTop, includes⟩

private theorem steps_of_reaches (reaches : project.Reaches unit other) (atTop : Bool) :
    ∃ found, ReflTransGen (Steps project) (unit, atTop) (other, found) ∧
      (atTop = false → found = false) := by
  induction reaches with
  | refl => exact ⟨atTop, .refl, id⟩
  | tail _ leads induction =>
      obtain ⟨found, chain, nested⟩ := induction
      obtain ⟨direct, includes⟩ := leads
      exact ⟨found && direct, chain.tail ⟨direct, includes, rfl⟩, fun inside => by
        rw [nested inside, Bool.false_and]⟩

private theorem reachesNested_of_steps {step : UnitName × Bool}
    (chain : ReflTransGen (Steps project) (unit, true) step) (nested : step.2 = false) :
    project.ReachesNested unit step.1 := by
  induction chain with
  | refl => simp at nested
  | @tail middle last chain step induction =>
      obtain ⟨direct, includes, same⟩ := step
      by_cases top : middle.2 = true
      · have inside : direct = false := by simpa [top, nested] using same
        exact ⟨middle.1, last.1, reaches_of_steps chain, inside ▸ includes, .refl⟩
      · obtain ⟨including, included, before, link, after⟩ := induction (by simpa using top)
        exact ⟨including, included, before, link, after.tail ⟨direct, includes⟩⟩

theorem exists_mem_trail (declared : project.Declares unit) :
    (∃ atTop, (other, atTop) ∈ project.inclusionGraph.trail unit) ↔
      project.Reaches unit other := by
  constructor
  · rintro ⟨atTop, met⟩
    exact reaches_of_steps ((mem_trail_steps declared).mp met)
  · intro reaches
    obtain ⟨found, chain, _⟩ := steps_of_reaches reaches true
    exact ⟨found, (mem_trail_steps declared).mpr chain⟩

theorem mem_trail_false (declared : project.Declares unit) :
    (other, false) ∈ project.inclusionGraph.trail unit ↔ project.ReachesNested unit other := by
  rw [mem_trail_steps declared]
  constructor
  · intro chain
    exact reachesNested_of_steps chain rfl
  · rintro ⟨including, included, before, link, after⟩
    obtain ⟨found, chain, _⟩ := steps_of_reaches before true
    obtain ⟨last, rest, nested⟩ := steps_of_reaches after false
    rw [nested rfl] at rest
    exact (chain.tail ⟨false, link, by simp⟩).trans rest

end Project

end GameExport
