import GameExport.Generation.Source
import GameExport.Proofs.Inclusion.Relation

/-! # What is written for a unit

A body is told here without its depths: which events stand in a forest, which items they lay out,
and by which rules items become statements. Main statements: expanding items gives the statements
that the rules give and fails only at a unit that links back to itself; and a statement is in a body
exactly if it is written for an event of the unit or of a unit that is written in place.
-/

namespace GameExport

inductive Event.Stands (event : Event) : List Event → Prop
  | direct {events : List Event} (member : event ∈ events) : Stands event events
  | inside {events : List Event} {other : Event} (member : other ∈ events)
      (below : Stands event other.subEvents) : Stands event events

theorem Event.Stands.of_subset {event : Event} {events more : List Event}
    (stands : event.Stands events) (subset : events ⊆ more) : event.Stands more := by
  cases stands with
  | direct member => exact .direct (subset member)
  | inside member below => exact .inside (subset member) below

theorem Event.not_stands_nil {event : Event} : ¬ event.Stands [] := by
  intro stands
  cases stands with
  | direct member => cases member
  | inside member below => cases member

theorem Event.stands_cons {event first : Event} {rest : List Event} :
    event.Stands (first :: rest) ↔
      event = first ∨ event.Stands first.subEvents ∨ event.Stands rest := by
  constructor
  · intro stands
    cases stands with
    | direct member =>
        rcases List.mem_cons.mp member with same | member
        · exact .inl same
        · exact .inr (.inr (.direct member))
    | inside member below =>
        rcases List.mem_cons.mp member with same | member
        · exact .inr (.inl (same ▸ below))
        · exact .inr (.inr (.inside member below))
  · intro somewhere
    rcases somewhere with same | below | later
    · exact .direct (same ▸ List.mem_cons_self)
    · exact .inside List.mem_cons_self below
    · exact later.of_subset (List.subset_cons_self _ _)

theorem stands_link {target : String} {events : List Event} :
    (Event.link target).Stands events ↔ ∃ atTop, LinkStands target atTop events := by
  constructor
  · intro stands
    induction stands with
    | direct member => exact ⟨true, .direct member⟩
    | inside member below induction =>
        rcases induction with ⟨atTop, stands⟩
        exact ⟨false, .inside member stands⟩
  · rintro ⟨atTop, stands⟩
    induction stands with
    | direct member => exact .direct member
    | inside member below induction => exact .inside member induction

theorem dependencyStands_iff {name : String} {events : List Event} :
    DependencyStands name events ↔ ∃ text dependencies subEvents,
      (Event.code text dependencies subEvents).Stands events ∧ name ∈ dependencies := by
  constructor
  · intro stands
    induction stands with
    | direct member needed => exact ⟨_, _, _, .direct member, needed⟩
    | inside member below induction =>
        rcases induction with ⟨text, dependencies, subEvents, stands, needed⟩
        exact ⟨text, dependencies, subEvents, .inside member stands, needed⟩
  · rintro ⟨text, dependencies, subEvents, stands, needed⟩
    induction stands with
    | direct member => exact .direct member needed
    | inside member below induction => exact .inside member induction

namespace Generation

/-! ## Items -/

def ownItems : Event → List Item
  | .standard instructions _ =>
      .statement .openBlock ::
        instructions.map (fun instruction => .statement (.perform instruction)) ++
        [.statement .closeBlock]
  | .link target => [.link target]
  | .code text _ subEvents =>
      (Text.lines text.toList).map (fun line => .statement (.native line)) ++
        if subEvents.isEmpty then [] else [.statement .openBlock, .statement .closeBlock]
  | .comment text => (Text.lines text.toList).map fun line => .statement (.comment line)

def itemsOf (events : List Event) : List Item := (layoutAll 0 events).map Prod.snd

theorem block_snd (depth other : Nat) {isEmpty : Bool} {inner others : List PlacedItem}
    (same : inner.map Prod.snd = others.map Prod.snd) :
    (block depth isEmpty inner).map Prod.snd = (block other isEmpty others).map Prod.snd := by
  cases isEmpty with
  | true => rfl
  | false => simp [block, placed, same]

mutual
theorem layout_snd : ∀ (depth other : Nat) (event : Event),
    (layout depth event).map Prod.snd = (layout other event).map Prod.snd
  | depth, other, .standard instructions subEvents => by
      have below := layoutAll_snd (depth + 2) (other + 2) subEvents
      simp only [layout, List.map_cons, List.map_append, List.map_map, placed, Function.comp_def,
        block_snd (depth + 1) (other + 1) below]
  | depth, other, .link target => rfl
  | depth, other, .code text dependencies subEvents => by
      have below := layoutAll_snd (depth + 1) (other + 1) subEvents
      simp only [layout, List.map_append, List.map_map, placed, Function.comp_def,
        block_snd depth other below]
  | depth, other, .comment text => by
      simp [layout, placed, Function.comp_def]

theorem layoutAll_snd : ∀ (depth other : Nat) (events : List Event),
    (layoutAll depth events).map Prod.snd = (layoutAll other events).map Prod.snd
  | depth, other, [] => rfl
  | depth, other, event :: rest => by
      rw [layoutAll, layoutAll, List.map_append, List.map_append, layout_snd depth other event,
        layoutAll_snd depth other rest]
end

theorem map_snd_layoutAll (depth : Nat) (events : List Event) :
    (layoutAll depth events).map Prod.snd = itemsOf events :=
  layoutAll_snd depth 0 events

theorem mem_block (item : Item) (depth : Nat) (subEvents : List Event) :
    item ∈ (block depth subEvents.isEmpty (layoutAll (depth + 1) subEvents)).map Prod.snd ↔
      (subEvents.isEmpty = false ∧ (item = .statement .openBlock ∨ item = .statement .closeBlock)) ∨
        item ∈ (layoutAll (depth + 1) subEvents).map Prod.snd := by
  cases subEvents with
  | nil => simp [block, layoutAll]
  | cons first rest =>
      simp only [block, placed, List.isEmpty_cons, Bool.false_eq_true, if_false, List.map_cons,
        List.map_append, List.map_nil, List.mem_cons, List.mem_append, List.not_mem_nil, or_false,
        true_and]
      grind

mutual
private theorem mem_layout (item : Item) : ∀ (depth : Nat) (event : Event),
    item ∈ (layout depth event).map Prod.snd ↔
      item ∈ ownItems event ∨ ∃ inner : Event, inner.Stands event.subEvents ∧ item ∈ ownItems inner
  | depth, .standard instructions subEvents => by
      have below := mem_layoutAll item (depth + 2) subEvents
      have inBlock := mem_block item (depth + 1) subEvents
      rw [below] at inBlock
      simp only [layout, ownItems, placed, List.map_cons, List.map_append, List.map_map,
        List.mem_cons, List.mem_append, Event.subEvents, inBlock, Function.comp_def]
      grind
  | depth, .link target => by
      simp [layout, ownItems, Event.subEvents, Event.not_stands_nil]
  | depth, .code text dependencies subEvents => by
      have below := mem_layoutAll item (depth + 1) subEvents
      have inBlock := mem_block item depth subEvents
      rw [below] at inBlock
      simp only [layout, ownItems, placed, List.map_append, List.map_map, List.mem_append,
        Event.subEvents, inBlock, Function.comp_def]
      grind
  | depth, .comment text => by
      simp [layout, ownItems, placed, Event.subEvents, Event.not_stands_nil]

private theorem mem_layoutAll (item : Item) : ∀ (depth : Nat) (events : List Event),
    item ∈ (layoutAll depth events).map Prod.snd ↔
      ∃ event : Event, event.Stands events ∧ item ∈ ownItems event
  | depth, [] => by simp [layoutAll, Event.not_stands_nil]
  | depth, event :: rest => by
      rw [layoutAll, List.map_append, List.mem_append, mem_layout item depth event,
        mem_layoutAll item depth rest]
      simp only [Event.stands_cons]
      grind
end

theorem mem_itemsOf {item : Item} {events : List Event} :
    item ∈ itemsOf events ↔ ∃ event : Event, event.Stands events ∧ item ∈ ownItems event :=
  mem_layoutAll item 0 events

theorem link_mem_itemsOf {target : String} {events : List Event} :
    .link target ∈ itemsOf events ↔ (Event.link target).Stands events := by
  rw [mem_itemsOf]
  constructor
  · rintro ⟨event, stands, member⟩
    cases event with
    | standard instructions subEvents => simp [ownItems] at member
    | link other =>
        simp only [ownItems, List.mem_singleton, Item.link.injEq] at member
        exact member ▸ stands
    | code text dependencies subEvents =>
        cases subEvents <;> simp [ownItems] at member
    | comment text => simp [ownItems] at member
  · intro stands
    exact ⟨_, stands, List.mem_singleton_self _⟩

def isOfEvent : Statement → Bool
  | .unknownLink _ | .enter _ | .begin _ | .finish _ => false
  | _ => true

theorem isOfEvent_of_mem {statement : Statement} {events : List Event}
    (member : .statement statement ∈ itemsOf events) : isOfEvent statement = true := by
  rcases mem_itemsOf.mp member with ⟨event, _, own⟩
  cases event with
  | standard instructions subEvents =>
      simp only [ownItems, List.mem_append, List.mem_cons, List.mem_map, Item.statement.injEq,
        List.not_mem_nil, or_false] at own
      rcases own with (rfl | ⟨instruction, _, rfl⟩) | rfl
      · rfl
      · rfl
      · rfl
  | link target => simp [ownItems] at own
  | code text dependencies subEvents =>
      simp only [ownItems, List.mem_append, List.mem_map, Item.statement.injEq] at own
      rcases own with ⟨line, _, rfl⟩ | own
      · rfl
      · split at own
        · cases own
        · simp only [List.mem_cons, Item.statement.injEq, List.not_mem_nil, or_false] at own
          rcases own with rfl | rfl
          · rfl
          · rfl
  | comment text =>
      simp only [ownItems, List.mem_map, Item.statement.injEq] at own
      rcases own with ⟨line, _, rfl⟩
      rfl

def OfEvents (items : List Item) : Prop := ∀ own, .statement own ∈ items → isOfEvent own = true

theorem OfEvents.rest {first : Item} {rest : List Item} (ofEvents : OfEvents (first :: rest)) :
    OfEvents rest :=
  fun own member => ofEvents own (List.mem_cons_of_mem _ member)

theorem ofEvents_itemsOf (events : List Event) : OfEvents (itemsOf events) :=
  fun _ => isOfEvent_of_mem

theorem native_mem_itemsOf {line : List Char} {events : List Event} :
    .statement (.native line) ∈ itemsOf events ↔ ∃ text dependencies subEvents,
      (Event.code text dependencies subEvents).Stands events ∧ line ∈ Text.lines text.toList := by
  rw [mem_itemsOf]
  constructor
  · rintro ⟨event, stands, member⟩
    cases event with
    | standard instructions subEvents => simp [ownItems] at member
    | link other => simp [ownItems] at member
    | code text dependencies subEvents =>
        refine ⟨text, dependencies, subEvents, stands, ?_⟩
        cases subEvents <;> simpa [ownItems] using member
    | comment text => simp [ownItems] at member
  · rintro ⟨text, dependencies, subEvents, stands, member⟩
    exact ⟨_, stands, List.mem_append_left _ (List.mem_map_of_mem member)⟩

/-! ## Rules of writing -/

/-- Items become statements. The `unopened` units may still be written in place. -/
inductive Writes (project : Project) (compiled : NameSet) (writing : UnitName) :
    (unopened : List UnitName) → List Item → List Statement → Prop
  | nil {unopened : List UnitName} : Writes project compiled writing unopened [] []
  | statement {unopened : List UnitName} {statement : Statement} {rest : List Item}
      {after : List Statement} (later : Writes project compiled writing unopened rest after) :
      Writes project compiled writing unopened (.statement statement :: rest) (statement :: after)
  | unknown {unopened : List UnitName} {target : String} {rest : List Item}
      {after : List Statement} (nothing : project.linked? target = none)
      (later : Writes project compiled writing unopened rest after) :
      Writes project compiled writing unopened (.link target :: rest) (.unknownLink target :: after)
  | enter {unopened : List UnitName} {target : String} {unit : UnitName} {rest : List Item}
      {after : List Statement} (leads : project.linked? target = some unit)
      (called : isCall compiled writing unit = true)
      (later : Writes project compiled writing unopened rest after) :
      Writes project compiled writing unopened (.link target :: rest) (.enter target :: after)
  | inPlace {unopened : List UnitName} {target : String} {unit : UnitName} {rest : List Item}
      {inner after : List Statement} (leads : project.linked? target = some unit)
      (notCalled : isCall compiled writing unit = false) (free : unit ∈ unopened)
      (within : Writes project compiled writing (without unopened unit)
        (itemsOf (eventsOf project unit)) inner)
      (later : Writes project compiled writing unopened rest after) :
      Writes project compiled writing unopened (.link target :: rest)
        (.begin unit :: inner ++ .finish unit :: after)

variable {project : Project} {compiled : NameSet} {writing : UnitName}

theorem eventsOf_eq {unit : UnitName} {events : List Event}
    (found : project.events? unit = some events) : eventsOf project unit = events := by
  rw [eventsOf, found, Option.getD_some]

/-- Expanding items either follows the rules or fails at a unit that links back to itself. -/
theorem expand_cases (project : Project) (compiled : NameSet) (writing : UnitName)
    (unopened : List UnitName) (items : List PlacedItem) :
    (∃ body, expand project compiled writing unopened items = .ok body ∧
      Writes project compiled writing unopened (items.map Prod.snd)
        (body.map Placed.statement)) ∨
    ∃ unit, expand project compiled writing unopened items = .error ⟨writing, .linksBack unit⟩ := by
  fun_induction expand project compiled writing unopened items with
  | case1 unopened => exact .inl ⟨[], rfl, .nil⟩
  | case2 unopened depth statement rest induction =>
      rcases induction with ⟨body, same, writes⟩ | ⟨unit, same⟩
      · exact .inl ⟨⟨depth, statement⟩ :: body, by rw [same]; rfl, .statement writes⟩
      · exact .inr ⟨unit, by rw [same]; rfl⟩
  | case3 unopened depth target rest nothing induction =>
      rcases induction with ⟨body, same, writes⟩ | ⟨unit, same⟩
      · exact .inl
          ⟨⟨depth, .unknownLink target⟩ :: body, by rw [same]; rfl, .unknown nothing writes⟩
      · exact .inr ⟨unit, by rw [same]; rfl⟩
  | case4 unopened depth target rest unit leads called induction =>
      rcases induction with ⟨body, same, writes⟩ | ⟨unit, same⟩
      · exact .inl ⟨⟨depth, .enter target⟩ :: body, by rw [same]; rfl, .enter leads called writes⟩
      · exact .inr ⟨unit, by rw [same]; rfl⟩
  | case5 unopened depth target rest unit leads notCalled free inner outer =>
      rcases inner with ⟨body, sameInner, within⟩ | ⟨other, sameInner⟩
      · rcases outer with ⟨after, sameOuter, later⟩ | ⟨other, sameOuter⟩
        · refine .inl ⟨_, by rw [sameInner, sameOuter]; rfl, ?_⟩
          rw [map_snd_layoutAll] at within
          have writes := Writes.inPlace leads (by simpa using notCalled) free within later
          simpa using writes
        · exact .inr ⟨other, by rw [sameInner, sameOuter]; rfl⟩
      · exact .inr ⟨other, by rw [sameInner]; rfl⟩
  | case6 unopened depth target rest unit leads notCalled opened =>
      exact .inr ⟨unit, rfl⟩

theorem writes_of_expand {unopened : List UnitName} {items : List PlacedItem} {body : List Placed}
    (expanded : expand project compiled writing unopened items = .ok body) :
    Writes project compiled writing unopened (items.map Prod.snd) (body.map Placed.statement) := by
  rcases expand_cases project compiled writing unopened items with
    ⟨other, same, writes⟩ | ⟨unit, same⟩
  · rw [expanded, Except.ok.injEq] at same
    exact same ▸ writes
  · rw [expanded] at same
    cases same

theorem expand_of_writes {unopened : List UnitName} {items : List PlacedItem}
    {statements : List Statement}
    (writes : Writes project compiled writing unopened (items.map Prod.snd) statements) :
    ∃ body, expand project compiled writing unopened items = .ok body ∧
      body.map Placed.statement = statements := by
  fun_induction expand project compiled writing unopened items generalizing statements with
  | case1 unopened =>
      cases writes
      exact ⟨[], rfl, rfl⟩
  | case2 unopened depth statement rest induction =>
      cases writes with
      | statement later =>
          rcases induction later with ⟨body, same, told⟩
          exact ⟨⟨depth, statement⟩ :: body, by rw [same]; rfl, by rw [List.map_cons, told]⟩
  | case3 unopened depth target rest nothing induction =>
      cases writes with
      | unknown _ later =>
          rcases induction later with ⟨body, same, told⟩
          exact ⟨⟨depth, .unknownLink target⟩ :: body, by rw [same]; rfl,
            by rw [List.map_cons, told]⟩
      | enter leads => simp [nothing] at leads
      | inPlace leads => simp [nothing] at leads
  | case4 unopened depth target rest unit leads called induction =>
      cases writes with
      | unknown nothing => simp [nothing] at leads
      | enter _ _ later =>
          rcases induction later with ⟨body, same, told⟩
          exact ⟨⟨depth, .enter target⟩ :: body, by rw [same]; rfl,
            by rw [List.map_cons, told]⟩
      | inPlace others notCalled =>
          rw [leads, Option.some.injEq] at others
          simp [others, notCalled] at called
  | case5 unopened depth target rest unit leads notCalled free inner outer =>
      cases writes with
      | unknown nothing => simp [nothing] at leads
      | enter others called =>
          rw [leads, Option.some.injEq] at others
          simp [others, called] at notCalled
      | inPlace others _ _ within later =>
          rw [leads, Option.some.injEq] at others
          subst others
          -- The rules know of no depth; what is expanded is laid out at that of the link.
          rw [← map_snd_layoutAll depth] at within
          rcases inner within with ⟨body, sameInner, toldInner⟩
          rcases outer later with ⟨after, sameOuter, toldOuter⟩
          refine ⟨⟨depth, .begin unit⟩ :: body ++ ⟨depth, .finish unit⟩ :: after, ?_, ?_⟩
          · rw [sameInner, sameOuter]
            rfl
          · simp [toldInner, toldOuter]
  | case6 unopened depth target rest unit leads notCalled opened =>
      cases writes with
      | unknown nothing => simp [nothing] at leads
      | enter others called =>
          rw [leads, Option.some.injEq] at others
          simp [others, called] at notCalled
      | inPlace others _ free =>
          rw [leads, Option.some.injEq] at others
          exact absurd (others ▸ free) opened

/-! ## What is in a body -/

def ownStatements (project : Project) (compiled : NameSet) (writing : UnitName) :
    Item → List Statement
  | .statement statement => [statement]
  | .link target =>
      match project.linked? target with
      | none => [.unknownLink target]
      | some unit =>
          if isCall compiled writing unit then [.enter target] else [.begin unit, .finish unit]

theorem mem_ownStatements_link {target : String} {statement : Statement} :
    statement ∈ ownStatements project compiled writing (.link target) ↔
      (project.linked? target = none ∧ statement = .unknownLink target) ∨
      ∃ unit, project.linked? target = some unit ∧
        ((isCall compiled writing unit = true ∧ statement = .enter target) ∨
          (isCall compiled writing unit = false ∧
            (statement = .begin unit ∨ statement = .finish unit))) := by
  rw [ownStatements]
  cases leads : project.linked? target with
  | none => simp
  | some unit =>
      cases called : isCall compiled writing unit with
      | true => simp [called]
      | false => simp [called]

theorem Writes.mem_iff {unopened : List UnitName} {items : List Item}
    {statements : List Statement} {statement : Statement}
    (writes : Writes project compiled writing unopened items statements)
    (ofEvents : OfEvents items) :
    statement ∈ statements ↔
      (∃ item ∈ items, statement ∈ ownStatements project compiled writing item) ∨
        ∃ home, .begin home ∈ statements ∧ ∃ item ∈ itemsOf (eventsOf project home),
          statement ∈ ownStatements project compiled writing item := by
  induction writes with
  | nil => simp
  | statement later induction =>
      have rest := induction ofEvents.rest
      have first := ofEvents _ List.mem_cons_self
      rename_i own _ _
      have different (home : UnitName) : .begin home ≠ own := by
        rintro rfl
        cases first
      simp only [List.mem_cons, rest, exists_eq_or_imp, ownStatements, List.not_mem_nil, or_false,
        different, false_or]
      grind
  | unknown nothing later induction =>
      have rest := induction ofEvents.rest
      simp only [List.mem_cons, rest, exists_eq_or_imp, ownStatements, nothing, List.not_mem_nil,
        or_false, reduceCtorEq, false_or]
      grind
  | enter leads called later induction =>
      have rest := induction ofEvents.rest
      simp only [List.mem_cons, rest, exists_eq_or_imp, ownStatements, leads, called, if_true,
        List.not_mem_nil, or_false, reduceCtorEq, false_or]
      grind
  | inPlace leads notCalled free within later inner outer =>
      have rest := outer ofEvents.rest
      have below := inner (ofEvents_itemsOf _)
      simp only [List.mem_cons, List.mem_append, List.cons_append, rest, below, exists_eq_or_imp,
        ownStatements, leads, notCalled, Bool.false_eq_true, if_false, List.not_mem_nil, or_false,
        reduceCtorEq, false_or, Statement.begin.injEq]
      grind

/-- The events of a unit are written into the body of another: they are its own, or the unit is
written in place. -/
def IsHome (unit : UnitName) (body : List Placed) (home : UnitName) : Prop :=
  home = unit ∨ .begin home ∈ body.map Placed.statement

theorem of_source_eq_ok {unit : UnitName} {code : Source}
    (written : source project compiled unit = .ok code) :
    code.unit = unit ∧ body project compiled unit = .ok code.body := by
  rw [source] at written
  cases lines : body project compiled unit with
  | error error =>
      rw [lines] at written
      cases written
  | ok lines =>
      rw [lines] at written
      cases written
      exact ⟨rfl, rfl⟩

theorem writes_of_body {unit : UnitName} {lines : List Placed}
    (written : body project compiled unit = .ok lines) :
    Writes project compiled unit (without (sheetUnits project) unit)
      (itemsOf (eventsOf project unit)) (lines.map Placed.statement) := by
  unfold body at written
  split at written
  · cases written
  · rename_i events found
    rw [eventsOf_eq found, ← map_snd_layoutAll 1]
    exact writes_of_expand written

/-- A statement is in a body exactly if it is written for an event of a unit whose events are
written into the body. -/
theorem mem_body {unit : UnitName} {lines : List Placed} {statement : Statement}
    (written : body project compiled unit = .ok lines) :
    statement ∈ lines.map Placed.statement ↔ ∃ home, IsHome unit lines home ∧
      ∃ item ∈ itemsOf (eventsOf project home),
        statement ∈ ownStatements project compiled unit item := by
  rw [(writes_of_body written).mem_iff (ofEvents_itemsOf _)]
  constructor
  · rintro (own | ⟨home, begun, own⟩)
    · exact ⟨unit, .inl rfl, own⟩
    · exact ⟨home, .inr begun, own⟩
  · rintro ⟨home, rfl | begun, own⟩
    · exact .inl own
    · exact .inr ⟨home, begun, own⟩

theorem ofEvent_mem_body {unit : UnitName} {lines : List Placed} {statement : Statement}
    (written : body project compiled unit = .ok lines) (ofEvent : isOfEvent statement = true) :
    statement ∈ lines.map Placed.statement ↔ ∃ home, IsHome unit lines home ∧
      .statement statement ∈ itemsOf (eventsOf project home) := by
  rw [mem_body written]
  constructor
  · rintro ⟨home, isHome, item, member, own⟩
    cases item with
    | statement statement =>
        rw [ownStatements, List.mem_singleton] at own
        exact ⟨home, isHome, own ▸ member⟩
    | link target =>
        rw [mem_ownStatements_link] at own
        rcases own with ⟨_, rfl⟩ | ⟨_, _, ⟨_, rfl⟩ | ⟨_, rfl | rfl⟩⟩
        all_goals cases ofEvent
  · rintro ⟨home, isHome, member⟩
    exact ⟨home, isHome, _, member, List.mem_singleton_self _⟩

theorem native_mem_body {unit : UnitName} {lines : List Placed} {line : List Char}
    (written : body project compiled unit = .ok lines) :
    .native line ∈ lines.map Placed.statement ↔ ∃ home, IsHome unit lines home ∧
      ∃ text dependencies subEvents,
        (Event.code text dependencies subEvents).Stands (eventsOf project home) ∧
          line ∈ Text.lines text.toList := by
  rw [ofEvent_mem_body written rfl]
  simp only [native_mem_itemsOf]

end Generation

end GameExport
