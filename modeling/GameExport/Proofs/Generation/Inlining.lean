import GameExport.Proofs.Generation.Links
import Mathlib.Data.List.Nodup

/-! # What is written in place is what is needed

Links are resolved twice: for the analysis of inclusions, over all declarations of a name, and while
writing, over the first one. Main statement: all that is written in place is needed, and if no name
is declared twice, all that is needed is written in place.
-/

namespace GameExport

open Relation (ReflTransGen TransGen)

namespace Generation

variable {project : Project} {compiled : NameSet} {writing unit home : UnitName}

/-! ## What is written in place is linked to -/

/-- Links among items lead to a unit, at once or through the links of other units. -/
def LeadTo (project : Project) (items : List Item) (home : UnitName) : Prop :=
  ∃ target first, .link target ∈ items ∧ project.linked? target = some first ∧
    ReflTransGen project.LinksTo first home

theorem LeadTo.later {first : Item} {rest : List Item} (lead : LeadTo project rest home) :
    LeadTo project (first :: rest) home := by
  rcases lead with ⟨target, unit, member, leads, chain⟩
  exact ⟨target, unit, List.mem_cons_of_mem _ member, leads, chain⟩

theorem transGen_of_leadTo (lead : LeadTo project (itemsOf (eventsOf project unit)) home) :
    TransGen project.LinksTo unit home := by
  rcases lead with ⟨target, first, member, leads, chain⟩
  exact .head' (linksTo_iff.mpr ⟨target, member, leads⟩) chain

theorem Writes.leadTo_of_begin {unopened : List UnitName} {items : List Item}
    {statements : List Statement}
    (writes : Writes project compiled writing unopened items statements)
    (ofEvents : OfEvents items)
    (begun : .begin home ∈ statements) : LeadTo project items home := by
  induction writes with
  | nil => cases begun
  | statement later induction =>
      rcases List.mem_cons.mp begun with rfl | begun
      · cases ofEvents _ List.mem_cons_self
      · exact (induction ofEvents.rest begun).later
  | unknown nothing later induction =>
      rcases List.mem_cons.mp begun with same | begun
      · cases same
      · exact (induction ofEvents.rest begun).later
  | enter leads called later induction =>
      rcases List.mem_cons.mp begun with same | begun
      · cases same
      · exact (induction ofEvents.rest begun).later
  | inPlace leads notCalled free within later inner outer =>
      simp only [List.mem_append, List.mem_cons, Statement.begin.injEq, reduceCtorEq,
        false_or] at begun
      rcases begun with (rfl | begun) | begun
      · exact ⟨_, _, List.mem_cons_self, leads, .refl⟩
      · have chain := transGen_of_leadTo (inner (ofEvents_itemsOf _) begun)
        exact ⟨_, _, List.mem_cons_self, leads, chain.to_reflTransGen⟩
      · exact (outer ofEvents.rest begun).later

theorem transGen_of_begin {lines : List Placed} (written : body project compiled unit = .ok lines)
    (begun : .begin home ∈ lines.map Placed.statement) : TransGen project.LinksTo unit home :=
  transGen_of_leadTo ((writes_of_body written).leadTo_of_begin (ofEvents_itemsOf _) begun)

theorem IsHome.chain {lines : List Placed} (written : body project compiled unit = .ok lines)
    (isHome : IsHome unit lines home) : ReflTransGen project.LinksTo unit home := by
  rcases isHome with rfl | begun
  · exact .refl
  · exact (transGen_of_begin written begun).to_reflTransGen

theorem begin_of_links {lines : List Placed} {other : UnitName}
    (written : body project .empty unit = .ok lines) (isHome : IsHome unit lines home)
    (links : project.LinksTo home other) : .begin other ∈ lines.map Placed.statement := by
  rcases linksTo_iff.mp links with ⟨target, member, leads⟩
  refine (mem_body written).mpr ⟨home, isHome, _, member, ?_⟩
  exact mem_ownStatements_link.mpr (.inr ⟨other, leads, .inr ⟨isCall_empty, .inl rfl⟩⟩)

theorem isHome_of_chain {lines : List Placed} (written : body project .empty unit = .ok lines)
    (chain : ReflTransGen project.LinksTo unit home) : IsHome unit lines home := by
  induction chain with
  | refl => exact .inl rfl
  | tail chain links isHome => exact .inr (begin_of_links written isHome links)

/-! ## Names that are declared once -/

theorem eq_eventsOf {events : List Event} (scenes : (project.scenes.map Scene.name).Nodup)
    (sheets : (project.externalEvents.map ExternalEvents.name).Nodup)
    (declared : project.HasEvents unit events) : events = eventsOf project unit := by
  rcases declared.exists_events? with ⟨first, found⟩
  have others := Project.hasEvents_of_events? found
  rw [eventsOf_eq found]
  cases declared with
  | scene member =>
      generalize same : UnitName.scene _ = named at others
      cases others with
      | scene memberFirst =>
          rw [List.inj_on_of_nodup_map scenes member memberFirst (UnitName.scene.inj same)]
      | sheet => cases same
  | sheet member =>
      generalize same : UnitName.externalEvents _ = named at others
      cases others with
      | scene => cases same
      | sheet memberFirst =>
          rw [List.inj_on_of_nodup_map sheets member memberFirst (UnitName.externalEvents.inj same)]

theorem links_or_depends {other : UnitName} (scenes : (project.scenes.map Scene.name).Nodup)
    (sheets : (project.externalEvents.map ExternalEvents.name).Nodup)
    (leads : project.Leads unit other) :
    project.LinksTo unit other ∨ ∃ name, other = .sourceFile name ∧ project.Declares other ∧
      DependencyStands name (eventsOf project unit) := by
  rcases leads with ⟨atTop, includes⟩
  cases includes with
  | link declared stands resolves =>
      rw [eq_eventsOf scenes sheets declared] at stands
      exact .inl ⟨_, stands_link.mpr ⟨_, stands⟩, resolves⟩
  | code declared stands native =>
      rw [eq_eventsOf scenes sheets declared] at stands
      exact .inr ⟨_, rfl, native, stands⟩

theorem chain_of_reaches {other : UnitName} (scenes : (project.scenes.map Scene.name).Nodup)
    (sheets : (project.externalEvents.map ExternalEvents.name).Nodup)
    (reaches : project.Reaches unit other) :
    ReflTransGen project.LinksTo unit other ∨
      ∃ name home, other = .sourceFile name ∧ project.Declares other ∧
        ReflTransGen project.LinksTo unit home ∧ DependencyStands name (eventsOf project home) := by
  induction reaches with
  | refl => exact .inl .refl
  | tail _ leads induction =>
      rcases induction with chain | ⟨name, home, rfl, _⟩
      · rcases links_or_depends scenes sheets leads with links | ⟨name, same, native, stands⟩
        · exact .inl (chain.tail links)
        · exact .inr ⟨name, _, same, native, chain, stands⟩
      · -- a source file includes nothing
        rcases leads with ⟨_, ⟨⟨⟩, _⟩ | ⟨⟨⟩, _⟩⟩

/-! ## What a source holds -/

/-- The events of a unit are written in place in a source. -/
def Source.Inlines (code : Source) (home : UnitName) : Prop :=
  .begin home ∈ code.body.map Placed.statement

/-- An event is written into a source: it stands in the events of its own unit or of one that is
written in place. -/
def Source.Emits (code : Source) (project : Project) (event : Event) : Prop :=
  ∃ home, IsHome code.unit code.body home ∧ event.Stands (eventsOf project home)

theorem native_mem_source {code : Source} {line : List Char}
    (written : source project compiled unit = .ok code) :
    .native line ∈ code.body.map Placed.statement ↔ ∃ text dependencies subEvents,
      code.Emits project (.code text dependencies subEvents) ∧ line ∈ Text.lines text.toList := by
  rcases of_source_eq_ok written with ⟨rfl, lines⟩
  rw [native_mem_body lines]
  constructor
  · rintro ⟨home, isHome, text, dependencies, subEvents, stands, member⟩
    exact ⟨text, dependencies, subEvents, ⟨home, isHome, stands⟩, member⟩
  · rintro ⟨text, dependencies, subEvents, ⟨home, isHome, stands⟩, member⟩
    exact ⟨home, isHome, text, dependencies, subEvents, stands, member⟩

theorem exists_emits_iff {code : Source} {name : String} :
    (∃ text dependencies subEvents, code.Emits project (.code text dependencies subEvents) ∧
      name ∈ dependencies) ↔
      ∃ home, IsHome code.unit code.body home ∧ DependencyStands name (eventsOf project home) := by
  simp only [dependencyStands_iff]
  constructor
  · rintro ⟨text, dependencies, subEvents, ⟨home, isHome, stands⟩, member⟩
    exact ⟨home, isHome, text, dependencies, subEvents, stands, member⟩
  · rintro ⟨home, isHome, text, dependencies, subEvents, stands, member⟩
    exact ⟨text, dependencies, subEvents, ⟨home, isHome, stands⟩, member⟩

/-! ## What is needed -/

variable {requirements : Requirements}

theorem holds_iff_of_hasEvents {events : List Event} (declared : project.HasEvents home events) :
    requirements.Holds home ↔ (∃ name ∈ requirements.scenes, home = .scene name) ∨
      ∃ name ∈ requirements.externalEvents, home = .externalEvents name := by
  cases declared with
  | scene => simp [Requirements.Holds]
  | sheet => simp [Requirements.Holds]

theorem hasEvents_of_transGen (chain : TransGen project.LinksTo unit home) :
    ∃ events, project.HasEvents home events := by
  rcases TransGen.tail'_iff.mp chain with ⟨last, _, target, _, resolves⟩
  exact resolves.hasEvents

theorem isSome_nativeSource? {name : String} :
    (project.nativeSource? name).isSome = true ↔ project.Declares (.sourceFile name) := by
  simp [Project.nativeSource?, Project.declares_sourceFile]

theorem needs_of_inlines {code : Source} (written : source project compiled unit = .ok code)
    (answered : project.inclusionAnalysis.needs unit = .ok requirements)
    (inlines : code.Inlines home) :
    (∃ name ∈ requirements.scenes, home = .scene name) ∨
      ∃ name ∈ requirements.externalEvents, home = .externalEvents name := by
  rcases Project.of_needs_eq_ok answered with ⟨_, acyclic, holds⟩
  have chain := transGen_of_begin (of_source_eq_ok written).2 inlines
  rcases hasEvents_of_transGen chain with ⟨events, declared⟩
  refine (holds_iff_of_hasEvents declared).mp ((holds home).mpr ⟨?_, ?_⟩)
  · exact Project.reaches_of_links chain.to_reflTransGen
  · rintro rfl
    exact acyclic.loopFree _ .refl chain

theorem needs_of_emits {code : Source} {name : String} {events : List Event}
    (declared : project.HasEvents unit events)
    (written : source project compiled unit = .ok code)
    (answered : project.inclusionAnalysis.needs unit = .ok requirements)
    (emits : ∃ text dependencies subEvents, code.Emits project (.code text dependencies subEvents) ∧
      name ∈ dependencies)
    (native : (project.nativeSource? name).isSome = true) : name ∈ requirements.sourceFiles := by
  rcases Project.of_needs_eq_ok answered with ⟨_, _, holds⟩
  rcases exists_emits_iff.mp emits with ⟨home, isHome, stands⟩
  rcases of_source_eq_ok written with ⟨rfl, lines⟩
  rcases dependencyStands_iff.mp stands with ⟨_, _, _, event, _⟩
  have includes : project.Leads home (.sourceFile name) :=
    ⟨true, .code (Project.hasEvents_eventsOf event) stands (isSome_nativeSource?.mp native)⟩
  refine (holds (.sourceFile name)).mpr ⟨?_, ?_⟩
  · exact (Project.reaches_of_links (isHome.chain lines)).tail includes
  · rintro same
    rw [← same] at declared
    cases declared

/-- The analysis of inclusions and the code of a unit see the same units. The lines of native code
are those of the code that is written. What is written in place is needed, as are the native source
files on which the written code depends; and if no two scenes and no two sheets have one name, then
nothing else is needed. -/
theorem needs_agrees_with_source {events : List Event} (declared : project.HasEvents unit events)
    (answered : project.inclusionAnalysis.needs unit = .ok requirements) :
    ∃ code, source project .empty unit = .ok code ∧
      (∀ line, .native line ∈ code.body.map Placed.statement ↔ ∃ text dependencies subEvents,
        code.Emits project (.code text dependencies subEvents) ∧ line ∈ Text.lines text.toList) ∧
      (∀ home, code.Inlines home → (∃ name ∈ requirements.scenes, home = .scene name) ∨
        ∃ name ∈ requirements.externalEvents, home = .externalEvents name) ∧
      (∀ name, (∃ text dependencies subEvents,
          code.Emits project (.code text dependencies subEvents) ∧ name ∈ dependencies) →
        (project.nativeSource? name).isSome = true → name ∈ requirements.sourceFiles) ∧
      ((project.scenes.map Scene.name).Nodup →
        (project.externalEvents.map ExternalEvents.name).Nodup →
        (∀ home, code.Inlines home ↔ (∃ name ∈ requirements.scenes, home = .scene name) ∨
          ∃ name ∈ requirements.externalEvents, home = .externalEvents name) ∧
        ∀ name, name ∈ requirements.sourceFiles ↔ (∃ text dependencies subEvents,
            code.Emits project (.code text dependencies subEvents) ∧ name ∈ dependencies) ∧
          (project.nativeSource? name).isSome = true) := by
  rcases Project.of_needs_eq_ok answered with ⟨_, acyclic, holds⟩
  rcases exists_source .empty declared acyclic.loopFree with ⟨code, written⟩
  rcases of_source_eq_ok written with ⟨ofUnit, lines⟩
  refine ⟨code, written, fun line => native_mem_source written,
    fun home => needs_of_inlines written answered,
    fun name => needs_of_emits declared written answered, fun scenes sheets => ⟨?_, ?_⟩⟩
  · intro home
    refine ⟨needs_of_inlines written answered, fun needed => ?_⟩
    have held : requirements.Holds home := by
      rcases needed with ⟨name, member, rfl⟩ | ⟨name, member, rfl⟩
      · exact member
      · exact member
    rcases (holds home).mp held with ⟨reaches, different⟩
    -- A way of inclusions goes along links, but for a last step to a source file.
    rcases chain_of_reaches scenes sheets reaches with chain | ⟨name, _, rfl, _⟩
    · exact (isHome_of_chain lines chain).resolve_left different
    · simp at needed
  · intro name
    refine ⟨fun needed => ?_, fun emitted =>
      needs_of_emits declared written answered emitted.1 emitted.2⟩
    rcases (holds (.sourceFile name)).mp needed with ⟨reaches, different⟩
    rcases chain_of_reaches scenes sheets reaches with
      chain | ⟨_, home, same, native, chain, stands⟩
    · rcases Project.hasEvents_of_chain chain with same | ⟨_, impossible⟩
      · exact absurd same different
      · cases impossible
    · cases same
      exact ⟨exists_emits_iff.mpr ⟨home, ofUnit ▸ isHome_of_chain lines chain, stands⟩,
        isSome_nativeSource?.mpr native⟩

/-- The shop and its till are written in place in the level, with code that needs a source file. -/
theorem needs_agrees_with_source_shopGame :
    shopGame.HasEvents (.scene "Level") [.link "Shop", .code "think();" [] []] ∧
      (shopGame.scenes.map Scene.name).Nodup ∧
      (shopGame.externalEvents.map ExternalEvents.name).Nodup ∧
      ∃ requirements code, shopGame.inclusionAnalysis.needs (.scene "Level") = .ok requirements ∧
        source shopGame .empty (.scene "Level") = .ok code ∧
        code.Inlines (.externalEvents "Till") ∧
        ∃ text dependencies subEvents,
          code.Emits shopGame (.code text dependencies subEvents) ∧ "bank" ∈ dependencies := by
  have scenes : (shopGame.scenes.map Scene.name).Nodup := by decide
  have sheets : (shopGame.externalEvents.map ExternalEvents.name).Nodup := by decide
  refine ⟨hasEvents_shopGame, scenes, sheets, ?_⟩
  rcases needs_agrees_with_source hasEvents_shopGame needs_shopGame with
    ⟨code, written, _, _, _, agrees⟩
  rcases agrees scenes sheets with ⟨inlines, sources⟩
  refine ⟨_, code, needs_shopGame, written, (inlines _).mpr (.inr ⟨"Till", ?_, rfl⟩),
    ((sources "bank").mp ?_).1⟩
  · exact List.mem_cons_of_mem _ (List.mem_singleton_self _)
  · exact List.mem_singleton_self _

end Generation

end GameExport
