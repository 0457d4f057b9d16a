import GameExport.Inclusion.Graph
import Mathlib.Logic.Relation

/-! # The relation of inclusion

Which unit includes which, told from the trees of events alone. Main statement: what the graph of
a project holds for a unit are exactly the inclusions of that unit.
-/

namespace GameExport

def Event.subEvents : Event → List Event
  | .standard _ subEvents => subEvents
  | .code _ _ subEvents => subEvents
  | .link _ => []
  | .comment _ => []

/-- A link to a target stands in a forest of events, directly or inside one of them. -/
inductive LinkStands (target : String) : (atTop : Bool) → List Event → Prop
  | direct {events : List Event} (member : .link target ∈ events) :
      LinkStands target true events
  | inside {events : List Event} {event : Event} {atTop : Bool} (member : event ∈ events)
      (below : LinkStands target atTop event.subEvents) : LinkStands target false events

inductive DependencyStands (name : String) : List Event → Prop
  | direct {events subEvents : List Event} {text : String} {dependencies : List String}
      (member : .code text dependencies subEvents ∈ events) (needed : name ∈ dependencies) :
      DependencyStands name events
  | inside {events : List Event} {event : Event} (member : event ∈ events)
      (below : DependencyStands name event.subEvents) : DependencyStands name events

/-! ## Walks through events meet what stands there -/

theorem linksIn_eq_flatMap (top : Bool) (events : List Event) :
    linksIn top events = events.flatMap (Event.links top) := by
  induction events with
  | nil => rfl
  | cons event rest induction => rw [linksIn, induction, List.flatMap_cons]

theorem dependenciesIn_eq_flatMap (events : List Event) :
    dependenciesIn events = events.flatMap Event.dependencies := by
  induction events with
  | nil => rfl
  | cons event rest induction => rw [dependenciesIn, induction, List.flatMap_cons]

theorem LinkStands.of_subset {target : String} {atTop : Bool} {events more : List Event}
    (stands : LinkStands target atTop events) (subset : events ⊆ more) :
    LinkStands target atTop more := by
  cases stands with
  | direct member => exact .direct (subset member)
  | inside member below => exact .inside (subset member) below

theorem DependencyStands.of_subset {name : String} {events more : List Event}
    (stands : DependencyStands name events) (subset : events ⊆ more) :
    DependencyStands name more := by
  cases stands with
  | direct member needed => exact .direct (subset member) needed
  | inside member below => exact .inside (subset member) below

theorem LinkStands.mem_linksIn {target : String} {atTop : Bool} {events : List Event}
    (stands : LinkStands target atTop events) (top : Bool) :
    (target, top && atTop) ∈ linksIn top events := by
  rw [linksIn_eq_flatMap]
  induction stands generalizing top with
  | direct member => exact List.mem_flatMap.mpr ⟨_, member, by simp [Event.links]⟩
  | @inside _ event _ member below induction =>
      refine List.mem_flatMap.mpr ⟨event, member, ?_⟩
      have met := induction false
      rw [← linksIn_eq_flatMap] at met
      cases event <;> simp [Event.subEvents, Event.links, linksIn] at met ⊢ <;> exact met

theorem DependencyStands.mem_dependenciesIn {name : String} {events : List Event}
    (stands : DependencyStands name events) : name ∈ dependenciesIn events := by
  rw [dependenciesIn_eq_flatMap]
  induction stands with
  | direct member needed =>
      exact List.mem_flatMap.mpr ⟨_, member, by simp [Event.dependencies, needed]⟩
  | @inside _ event member below induction =>
      refine List.mem_flatMap.mpr ⟨event, member, ?_⟩
      rw [← dependenciesIn_eq_flatMap] at induction
      cases event <;> simp [Event.subEvents, Event.dependencies, dependenciesIn] at induction ⊢
      · exact induction
      · exact .inr induction

mutual
private theorem Event.linkStands_of_mem {target : String} {found top : Bool} :
    ∀ event : Event, (target, found) ∈ event.links top →
      (event = .link target ∧ found = top) ∨
        (found = false ∧ ∃ atTop, LinkStands target atTop event.subEvents)
  | .standard _ subEvents, met => by
      obtain ⟨atTop, same, stands⟩ := linkStands_of_mem subEvents met
      exact .inr ⟨by simpa using same, atTop, stands⟩
  | .link other, met => by
      simp only [Event.links, List.mem_singleton, Prod.mk.injEq] at met
      exact .inl ⟨by rw [met.1], met.2⟩
  | .code _ _ subEvents, met => by
      obtain ⟨atTop, same, stands⟩ := linkStands_of_mem subEvents met
      exact .inr ⟨by simpa using same, atTop, stands⟩
  | .comment _, met => by simp [Event.links] at met

private theorem linkStands_of_mem {target : String} {found top : Bool} :
    ∀ events : List Event, (target, found) ∈ linksIn top events →
      ∃ atTop, found = (top && atTop) ∧ LinkStands target atTop events
  | [], met => by simp [linksIn] at met
  | event :: rest, met => by
      rcases List.mem_append.mp met with met | met
      · rcases Event.linkStands_of_mem event met with ⟨same, found⟩ | ⟨found, atTop, below⟩
        · exact ⟨true, by simp [found], .direct (same ▸ List.mem_cons_self)⟩
        · exact ⟨false, by simp [found], .inside List.mem_cons_self below⟩
      · obtain ⟨atTop, same, stands⟩ := linkStands_of_mem rest met
        exact ⟨atTop, same, stands.of_subset (List.subset_cons_self _ _)⟩
end

/-- A walk from the top meets exactly the links that stand in the events. -/
theorem mem_linksIn_true {target : String} {atTop : Bool} {events : List Event} :
    (target, atTop) ∈ linksIn true events ↔ LinkStands target atTop events := by
  constructor
  · intro met
    obtain ⟨found, same, stands⟩ := linkStands_of_mem events met
    rw [same]
    simpa using stands
  · intro stands
    simpa using stands.mem_linksIn true

mutual
private theorem Event.dependencyStands_of_mem {name : String} :
    ∀ event : Event, name ∈ event.dependencies → DependencyStands name [event]
  | .standard _ subEvents, met =>
      .inside List.mem_cons_self (dependencyStands_of_mem subEvents met)
  | .link _, met => by simp [Event.dependencies] at met
  | .code _ _ subEvents, met => by
      rcases List.mem_append.mp met with needed | met
      · exact .direct List.mem_cons_self needed
      · exact .inside List.mem_cons_self (dependencyStands_of_mem subEvents met)
  | .comment _, met => by simp [Event.dependencies] at met

private theorem dependencyStands_of_mem {name : String} :
    ∀ events : List Event, name ∈ dependenciesIn events → DependencyStands name events
  | [], met => by simp [dependenciesIn] at met
  | event :: rest, met => by
      rcases List.mem_append.mp met with met | met
      · exact (Event.dependencyStands_of_mem event met).of_subset (by simp)
      · exact (dependencyStands_of_mem rest met).of_subset (List.subset_cons_self _ _)
end

theorem mem_dependenciesIn {name : String} {events : List Event} :
    name ∈ dependenciesIn events ↔ DependencyStands name events :=
  ⟨dependencyStands_of_mem events, DependencyStands.mem_dependenciesIn⟩

namespace Project

/-! ## Units and inclusions -/

/-- A unit has events: those of a scene or of a sheet that is declared by its name. -/
inductive HasEvents (project : Project) : UnitName → List Event → Prop
  | scene {scene : Scene} (declared : scene ∈ project.scenes) :
      HasEvents project (.scene scene.name) scene.events
  | sheet {sheet : ExternalEvents} (declared : sheet ∈ project.externalEvents) :
      HasEvents project (.externalEvents sheet.name) sheet.events

inductive Declares (project : Project) : UnitName → Prop
  | scene {scene : Scene} (declared : scene ∈ project.scenes) :
      Declares project (.scene scene.name)
  | sheet {sheet : ExternalEvents} (declared : sheet ∈ project.externalEvents) :
      Declares project (.externalEvents sheet.name)
  | source {source : SourceFile} (declared : source ∈ project.sourceFiles)
      (native : source.language = SourceFile.nativeLanguage) :
      Declares project (.sourceFile source.name)

/-- The unit that a link's target names: a sheet if there is one, or else a scene. -/
inductive Resolves (project : Project) (target : String) : UnitName → Prop
  | sheet (declared : project.Declares (.externalEvents target)) :
      Resolves project target (.externalEvents target)
  | scene (noSheet : ¬ project.Declares (.externalEvents target))
      (declared : project.Declares (.scene target)) : Resolves project target (.scene target)

/-- One unit includes another, by a link at the top of its events or by anything else. Units of
one kind and name are one unit. -/
inductive Includes (project : Project) (unit : UnitName) : (atTop : Bool) → UnitName → Prop
  | link {events : List Event} {target : String} {atTop : Bool} {other : UnitName}
      (body : project.HasEvents unit events) (stands : LinkStands target atTop events)
      (resolves : project.Resolves target other) : Includes project unit atTop other
  | code {events : List Event} {name : String} (body : project.HasEvents unit events)
      (stands : DependencyStands name events) (declared : project.Declares (.sourceFile name)) :
      Includes project unit true (.sourceFile name)

def Leads (project : Project) (unit other : UnitName) : Prop :=
  ∃ atTop, project.Includes unit atTop other

theorem Includes.declares {project : Project} {unit other : UnitName} {atTop : Bool}
    (includes : project.Includes unit atTop other) : project.Declares other := by
  cases includes with
  | link body stands resolves => cases resolves <;> assumption
  | code body stands declared => exact declared

theorem HasEvents.declares {project : Project} {unit : UnitName} {events : List Event}
    (body : project.HasEvents unit events) : project.Declares unit := by
  cases body with
  | scene declared => exact .scene declared
  | sheet declared => exact .sheet declared

/-! ## The graph of a project holds its inclusions -/

theorem declares_scene {project : Project} {name : String} :
    project.Declares (.scene name) ↔ ∃ scene ∈ project.scenes, scene.name = name := by
  constructor
  · rintro ⟨⟩
    exact ⟨_, ‹_›, rfl⟩
  · rintro ⟨scene, declared, rfl⟩
    exact .scene declared

theorem declares_externalEvents {project : Project} {name : String} :
    project.Declares (.externalEvents name) ↔
      ∃ sheet ∈ project.externalEvents, sheet.name = name := by
  constructor
  · rintro ⟨⟩
    exact ⟨_, ‹_›, rfl⟩
  · rintro ⟨sheet, declared, rfl⟩
    exact .sheet declared

theorem declares_sourceFile {project : Project} {name : String} :
    project.Declares (.sourceFile name) ↔
      ∃ source ∈ project.sourceFiles, source.name = name ∧ source.isNative = true := by
  constructor
  · rintro ⟨⟩
    exact ⟨_, ‹_›, rfl, by simpa [SourceFile.isNative]⟩
  · rintro ⟨source, declared, rfl, native⟩
    exact .source declared (by simpa [SourceFile.isNative] using native)

theorem linked?_eq_some {project : Project} {target : String} {other : UnitName} :
    project.linked? target = some other ↔ project.Resolves target other := by
  have sheet : (project.sheet? target).isSome ↔ project.Declares (.externalEvents target) := by
    simp [sheet?, declares_externalEvents]
  have scene : (project.scene? target).isSome ↔ project.Declares (.scene target) := by
    simp [scene?, declares_scene]
  unfold linked?
  by_cases isSheet : project.Declares (.externalEvents target)
  · rw [if_pos (sheet.mpr isSheet)]
    constructor
    · rintro ⟨⟩
      exact .sheet isSheet
    · rintro (_ | ⟨noSheet, _⟩)
      · rfl
      · exact absurd isSheet noSheet
  · rw [if_neg (mt sheet.mp isSheet)]
    by_cases isScene : project.Declares (.scene target)
    · rw [if_pos (scene.mpr isScene)]
      constructor
      · rintro ⟨⟩
        exact .scene isSheet isScene
      · rintro (declared | _)
        · exact absurd declared isSheet
        · rfl
    · rw [if_neg (mt scene.mp isScene)]
      constructor
      · rintro ⟨⟩
      · rintro (declared | ⟨_, declared⟩)
        · exact absurd declared isSheet
        · exact absurd declared isScene

theorem required?_eq_some {project : Project} {name : String} {other : UnitName} :
    project.required? name = some other ↔
      other = .sourceFile name ∧ project.Declares (.sourceFile name) := by
  have native : (project.nativeSource? name).isSome ↔ project.Declares (.sourceFile name) := by
    simp [nativeSource?, declares_sourceFile]
  unfold required?
  by_cases declared : project.Declares (.sourceFile name)
  · simp [native.mpr declared, declared, eq_comm]
  · simp [mt native.mp declared, declared]

theorem mem_sheets {project : Project} {unit : UnitName} {events : List Event} :
    (unit, events) ∈ project.sheets ↔ project.HasEvents unit events := by
  constructor
  · intro member
    rcases List.mem_append.mp member with member | member <;>
      obtain ⟨_, declared, same⟩ := List.mem_map.mp member <;> cases same
    · exact .scene declared
    · exact .sheet declared
  · rintro (declared | declared)
    · exact List.mem_append_left _ (List.mem_map_of_mem declared)
    · exact List.mem_append_right _ (List.mem_map_of_mem declared)

theorem mem_units {project : Project} {unit : UnitName} :
    unit ∈ project.inclusionGraph.units ↔ project.Declares unit := by
  simp only [inclusionGraph, List.mem_eraseDups, unitNames, sheets, List.mem_append,
    List.mem_map, List.map_append, List.map_map, List.mem_filter]
  cases unit with
  | scene name => simp [declares_scene]
  | externalEvents name => simp [declares_externalEvents]
  | sourceFile name => simp [declares_sourceFile, and_comm, and_left_comm]

theorem mem_inclusionsOf {project : Project} {events : List Event} {other : UnitName}
    {atTop : Bool} :
    ⟨other, atTop⟩ ∈ project.inclusionsOf events ↔
      (∃ target, LinkStands target atTop events ∧ project.Resolves target other) ∨
      (atTop = true ∧ ∃ name, DependencyStands name events ∧ other = .sourceFile name ∧
        project.Declares (.sourceFile name)) := by
  simp only [inclusionsOf, List.mem_append, List.mem_filterMap, Option.map_eq_some_iff,
    Inclusion.mk.injEq, linked?_eq_some, required?_eq_some, mem_dependenciesIn]
  constructor
  · rintro (⟨⟨target, found⟩, met, unit, resolves, rfl, rfl⟩ |
      ⟨name, stands, unit, source, rfl, rfl⟩)
    · exact .inl ⟨target, mem_linksIn_true.mp met, resolves⟩
    · exact .inr ⟨rfl, name, stands, source⟩
  · rintro (⟨target, stands, resolves⟩ | ⟨rfl, name, stands, source⟩)
    · exact .inl ⟨(target, atTop), mem_linksIn_true.mpr stands, other, resolves, rfl, rfl⟩
    · exact .inr ⟨name, stands, other, source, rfl, rfl⟩

/-- What the graph holds for a unit are its inclusions. -/
theorem mem_inclusionsFrom {project : Project} {unit other : UnitName} {atTop : Bool} :
    ⟨other, atTop⟩ ∈ project.inclusionGraph.inclusionsFrom unit ↔
      project.Includes unit atTop other := by
  have held : ⟨other, atTop⟩ ∈ project.inclusionGraph.inclusionsFrom unit ↔
      ∃ events, project.HasEvents unit events ∧ ⟨other, atTop⟩ ∈ project.inclusionsOf events := by
    simp only [InclusionGraph.inclusionsFrom, inclusionGraph, List.mem_filterMap,
      List.mem_flatMap, List.mem_map, Option.ite_none_right_eq_some, Option.some.injEq]
    constructor
    · rintro ⟨_, ⟨⟨_, events⟩, member, _, included, rfl⟩, rfl, rfl⟩
      exact ⟨events, mem_sheets.mp member, included⟩
    · rintro ⟨events, body, included⟩
      exact ⟨(unit, _), ⟨(unit, events), mem_sheets.mpr body, _, included, rfl⟩, rfl, rfl⟩
  rw [held]
  constructor
  · rintro ⟨events, body, included⟩
    rcases mem_inclusionsOf.mp included with ⟨target, stands, resolves⟩ |
      ⟨rfl, name, stands, rfl, declared⟩
    · exact .link body stands resolves
    · exact .code body stands declared
  · rintro (⟨body, stands, resolves⟩ | ⟨body, stands, declared⟩)
    · exact ⟨_, body, mem_inclusionsOf.mpr (.inl ⟨_, stands, resolves⟩)⟩
    · exact ⟨_, body, mem_inclusionsOf.mpr (.inr ⟨rfl, _, stands, rfl, declared⟩)⟩

end Project

end GameExport
