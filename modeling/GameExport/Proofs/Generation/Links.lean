import GameExport.Proofs.Generation.Writing
import GameExport.Proofs.Inclusion.Answer
import Mathlib

/-! # When a body can be written

A link is followed to the first unit that is declared by a name. Main statement: if no link is
called, a body can be written exactly if no way along links goes round in a circle, and then it can
also be written whatever links are called.
-/

namespace GameExport

open Relation (ReflTransGen TransGen)

namespace Project

/-- A link of a unit leads to another unit. Of each name the first declaration counts. -/
def LinksTo (project : Project) (unit other : UnitName) : Prop :=
  ∃ target, (Event.link target).Stands (Generation.eventsOf project unit) ∧
    project.Resolves target other

/-- No way along links from a unit goes round in a circle. -/
def LoopFree (project : Project) (unit : UnitName) : Prop :=
  ∀ member, ReflTransGen project.LinksTo unit member → ¬ TransGen project.LinksTo member member

variable {project : Project} {unit other : UnitName}

/-! ## First declarations -/

theorem hasEvents_of_events? {events : List Event} (found : project.events? unit = some events) :
    project.HasEvents unit events := by
  cases unit with
  | scene name =>
      rcases Option.map_eq_some_iff.mp found with ⟨scene, first, rfl⟩
      have sameName := List.find?_some first
      rw [beq_iff_eq] at sameName
      exact sameName ▸ .scene (List.mem_of_find?_eq_some first)
  | externalEvents name =>
      rcases Option.map_eq_some_iff.mp found with ⟨sheet, first, rfl⟩
      have sameName := List.find?_some first
      rw [beq_iff_eq] at sameName
      exact sameName ▸ .sheet (List.mem_of_find?_eq_some first)
  | sourceFile name => cases found

theorem HasEvents.exists_events? {events : List Event} (declared : project.HasEvents unit events) :
    ∃ first, project.events? unit = some first := by
  cases declared with
  | scene declared =>
      have found : (project.scene? _).isSome = true :=
        List.find?_isSome.mpr ⟨_, declared, beq_self_eq_true _⟩
      rcases Option.isSome_iff_exists.mp found with ⟨first, found⟩
      exact ⟨first.events, by rw [events?, found]; rfl⟩
  | sheet declared =>
      have found : (project.sheet? _).isSome = true :=
        List.find?_isSome.mpr ⟨_, declared, beq_self_eq_true _⟩
      rcases Option.isSome_iff_exists.mp found with ⟨first, found⟩
      exact ⟨first.events, by rw [events?, found]; rfl⟩

theorem hasEvents_eventsOf {event : Event}
    (stands : event.Stands (Generation.eventsOf project unit)) :
    project.HasEvents unit (Generation.eventsOf project unit) := by
  cases found : project.events? unit with
  | none =>
      rw [Generation.eventsOf, found] at stands
      exact absurd stands Event.not_stands_nil
  | some events =>
      rw [Generation.eventsOf, found]
      exact hasEvents_of_events? found

theorem Resolves.hasEvents {target : String} (resolves : project.Resolves target unit) :
    ∃ events, project.HasEvents unit events := by
  cases resolves with
  | sheet declared =>
      rcases declares_externalEvents.mp declared with ⟨sheet, member, rfl⟩
      exact ⟨_, .sheet member⟩
  | scene noSheet declared =>
      rcases declares_scene.mp declared with ⟨scene, member, rfl⟩
      exact ⟨_, .scene member⟩

theorem LinksTo.leads (links : project.LinksTo unit other) : project.Leads unit other := by
  rcases links with ⟨target, stands, resolves⟩
  rcases stands_link.mp stands with ⟨atTop, linkStands⟩
  exact ⟨atTop, .link (hasEvents_eventsOf stands) linkStands resolves⟩

theorem reaches_of_links (chain : ReflTransGen project.LinksTo unit other) :
    project.Reaches unit other :=
  chain.lift id fun _ _ => LinksTo.leads

theorem Acyclic.loopFree (acyclic : project.Acyclic unit) : project.LoopFree unit := by
  intro member chain loop
  exact acyclic member (reaches_of_links chain) (loop.lift id fun _ _ => LinksTo.leads)

/-! ## Ways along links -/

theorem LoopFree.of_chain (free : project.LoopFree unit)
    (chain : ReflTransGen project.LinksTo unit other) : project.LoopFree other :=
  fun member further => free member (chain.trans further)

theorem loopFree_of_links (free : ∀ other, project.LinksTo unit other → project.LoopFree other) :
    project.LoopFree unit := by
  intro member chain loop
  rcases ReflTransGen.cases_head chain with rfl | ⟨first, links, further⟩
  · rcases TransGen.head'_iff.mp loop with ⟨first, links, back⟩
    exact free first links unit back loop
  · exact free first links member further loop

theorem hasEvents_of_chain (chain : ReflTransGen project.LinksTo unit other) :
    other = unit ∨ ∃ events, project.HasEvents other events := by
  rcases ReflTransGen.cases_tail chain with same | ⟨last, _, target, _, resolves⟩
  · exact .inl same
  · exact .inr resolves.hasEvents

end Project

namespace Generation

variable {project : Project} {compiled : NameSet} {writing unit : UnitName}

theorem mem_sheetUnits :
    unit ∈ sheetUnits project ↔ ∃ events, project.HasEvents unit events := by
  rw [sheetUnits, List.mem_eraseDups, List.mem_map]
  constructor
  · rintro ⟨⟨other, events⟩, member, rfl⟩
    exact ⟨events, Project.mem_sheets.mp member⟩
  · rintro ⟨events, declared⟩
    exact ⟨(unit, events), Project.mem_sheets.mpr declared, rfl⟩

theorem mem_without {units : List UnitName} {other : UnitName} :
    other ∈ without units unit ↔ other ∈ units ∧ other ≠ unit := by
  rw [without, List.mem_filter, bne_iff_ne]

theorem isCall_empty : isCall .empty writing unit = false := by
  cases unit with
  | scene name => rfl
  | externalEvents name => simp [isCall, NameSet.mem_def, NameSet.empty]
  | sourceFile name => rfl

theorem of_isCall {target : String} (leads : project.linked? target = some unit)
    (called : isCall compiled writing unit = true) :
    unit = .externalEvents target ∧ target ∈ compiled ∧ .externalEvents target ≠ writing := by
  cases unit with
  | scene name => cases called
  | externalEvents name =>
      simp only [isCall, Bool.and_eq_true, decide_eq_true_eq, bne_iff_ne] at called
      cases Project.linked?_eq_some.mp leads
      exact ⟨rfl, called⟩
  | sourceFile name => cases called

theorem linksTo_iff {other : UnitName} :
    project.LinksTo unit other ↔
      ∃ target, .link target ∈ itemsOf (eventsOf project unit) ∧
        project.linked? target = some other := by
  simp only [Project.LinksTo, link_mem_itemsOf, Project.linked?_eq_some]

theorem ahead_of_loopFree {other : UnitName} {unopened : List UnitName}
    (free : project.LoopFree unit) (links : project.LinksTo unit other)
    (inside : ∀ last, ReflTransGen project.LinksTo other last → last ∈ unopened) :
    project.LoopFree other ∧
      ∀ last, ReflTransGen project.LinksTo other last → last ∈ without unopened unit := by
  refine ⟨free.of_chain (.single links), fun last chain => mem_without.mpr ⟨inside last chain, ?_⟩⟩
  rintro rfl
  exact free last .refl (.head' links chain)

/-! ## Writing succeeds exactly without loops -/

theorem exists_writes (project : Project) (compiled : NameSet) (writing : UnitName)
    (unopened : List UnitName) (items : List Item)
    (ahead : ∀ target unit, .link target ∈ items → project.linked? target = some unit →
      project.LoopFree unit ∧
        ∀ other, ReflTransGen project.LinksTo unit other → other ∈ unopened) :
    ∃ statements, Writes project compiled writing unopened items statements := by
  match items with
  | [] => exact ⟨[], .nil⟩
  | item :: rest =>
      rcases exists_writes project compiled writing unopened rest
        (fun target unit member => ahead target unit (List.mem_cons_of_mem _ member)) with
        ⟨after, later⟩
      match item with
      | .statement statement => exact ⟨_, .statement later⟩
      | .link target =>
          cases leads : project.linked? target with
          | none => exact ⟨_, .unknown leads later⟩
          | some unit =>
              rcases ahead target unit List.mem_cons_self leads with ⟨free, inside⟩
              cases called : isCall compiled writing unit with
              | true => exact ⟨_, .enter leads called later⟩
              | false =>
                  -- No link from here leads back to the unit, so it need not be opened again.
                  have opens : unit ∈ unopened := inside unit .refl
                  have smaller := length_without_lt opens
                  have aheadInside : ∀ further other,
                      .link further ∈ itemsOf (eventsOf project unit) →
                      project.linked? further = some other → project.LoopFree other ∧
                        ∀ last, ReflTransGen project.LinksTo other last →
                          last ∈ without unopened unit := by
                    intro further other member leadsOn
                    have links : project.LinksTo unit other :=
                      linksTo_iff.mpr ⟨further, member, leadsOn⟩
                    exact ahead_of_loopFree free links
                      fun last chain => inside last (.head links chain)
                  rcases exists_writes project compiled writing (without unopened unit)
                    (itemsOf (eventsOf project unit)) aheadInside with ⟨inner, within⟩
                  exact ⟨_, .inPlace leads called opens within later⟩
  termination_by (unopened.length, items.length)

theorem loopFree_of_writes {unopened : List UnitName} {items : List Item}
    {statements : List Statement}
    (writes : Writes project .empty writing unopened items statements) :
    ∀ target unit, .link target ∈ items → project.linked? target = some unit →
      project.LoopFree unit := by
  induction writes with
  | nil => exact fun _ _ member => absurd member List.not_mem_nil
  | statement later induction =>
      intro target unit member leads
      rcases List.mem_cons.mp member with same | member
      · cases same
      · exact induction target unit member leads
  | unknown nothing later induction =>
      intro target unit member leads
      rcases List.mem_cons.mp member with same | member
      · cases same
        rw [nothing] at leads
        cases leads
      · exact induction target unit member leads
  | enter _ called => rw [isCall_empty] at called; cases called
  | inPlace leadsHere notCalled opens within later inner outer =>
      intro target unit member leads
      rcases List.mem_cons.mp member with same | member
      · cases same
        rw [leadsHere, Option.some.injEq] at leads
        subst leads
        apply Project.loopFree_of_links
        intro other links
        rcases linksTo_iff.mp links with ⟨further, member, leadsOn⟩
        exact inner further other member leadsOn
      · exact outer target unit member leads

theorem body_of_loopFree (compiled : NameSet) {events : List Event}
    (declared : project.HasEvents unit events) (free : project.LoopFree unit) :
    ∃ lines, body project compiled unit = .ok lines := by
  rcases declared.exists_events? with ⟨first, found⟩
  have ahead : ∀ target other, .link target ∈ itemsOf (eventsOf project unit) →
      project.linked? target = some other → project.LoopFree other ∧
        ∀ last, ReflTransGen project.LinksTo other last →
          last ∈ without (sheetUnits project) unit := by
    intro target other member leads
    have links : project.LinksTo unit other := linksTo_iff.mpr ⟨target, member, leads⟩
    apply ahead_of_loopFree free links
    intro last chain
    rw [mem_sheetUnits]
    rcases Project.hasEvents_of_chain chain with rfl | hasEvents
    · exact (Project.linked?_eq_some.mp leads).hasEvents
    · exact hasEvents
  rcases exists_writes project compiled unit _ _ ahead with ⟨statements, writes⟩
  rw [eventsOf_eq found, ← map_snd_layoutAll 1] at writes
  rcases expand_of_writes writes with ⟨lines, expanded, _⟩
  exact ⟨lines, by rw [body, found]; exact expanded⟩

theorem exists_source (compiled : NameSet) {events : List Event}
    (declared : project.HasEvents unit events) (free : project.LoopFree unit) :
    ∃ code, source project compiled unit = .ok code := by
  rcases body_of_loopFree compiled declared free with ⟨lines, written⟩
  exact ⟨⟨unit, project.name, lines⟩, by rw [source, written]; rfl⟩

/-- The body of a declared unit either can be written or fails at a unit that links back. -/
theorem body_cases (compiled : NameSet) {events : List Event}
    (declared : project.HasEvents unit events) :
    (∃ lines, body project compiled unit = .ok lines) ∨
      ∃ other, body project compiled unit = .error ⟨unit, .linksBack other⟩ := by
  rcases declared.exists_events? with ⟨first, found⟩
  rw [body, found]
  rcases expand_cases project compiled unit
    (without (sheetUnits project) unit) (layoutAll 1 first) with ⟨lines, same, _⟩ | ⟨other, same⟩
  · exact .inl ⟨lines, same⟩
  · exact .inr ⟨other, same⟩

theorem loopFree_of_body {lines : List Placed} (written : body project .empty unit = .ok lines) :
    project.LoopFree unit := by
  apply Project.loopFree_of_links
  intro other links
  rcases linksTo_iff.mp links with ⟨target, member, leads⟩
  exact loopFree_of_writes (writes_of_body written) target other member leads

/-! ## A game -/

def shopGame : Project where
  name := "Shop"
  file := ⟨"game.json"⟩
  scenes := [⟨"Level", [], [.link "Shop", .code "think();" [] []], false, none⟩]
  externalEvents :=
    [⟨"Shop", "", [.comment "sells", .link "Till"]⟩, ⟨"Till", "", [.code "count();" ["bank"] []]⟩]
  sourceFiles := [⟨"bank", "bank.cpp", "C++"⟩]
  resources := []
  objects := []
  extensions := []
  windowsExecutable := ""
  linuxExecutable := ""
  macExecutable := ""
  usesExternalSources := false
  editor := none

theorem hasEvents_shopGame :
    shopGame.HasEvents (.scene "Level") [.link "Shop", .code "think();" [] []] := by
  have declared : Scene.mk "Level" [] [.link "Shop", .code "think();" [] []] false none ∈
      shopGame.scenes := List.mem_singleton_self _
  exact .scene declared

theorem needs_shopGame : shopGame.inclusionAnalysis.needs (.scene "Level") =
    .ok ⟨⟨[], by simp⟩, ⟨["Shop", "Till"], by decide⟩, ⟨["bank"], by decide⟩,
      ⟨[], by simp⟩⟩ := by
  rw [Project.needs_eq_answer hasEvents_shopGame.declares]
  cbv

end Generation

end GameExport
