import GameExport.Proofs.Generation.Links

/-! # Writing ends

Writing goes down into the events below an event and into the units that are written in place, and
keeps the units that it is inside of. Nothing in that recursion itself bounds how deep it goes. Main
statement: it always ends, with no more calls open at once than the sheets and their events allow,
and gives the body of the unit; it fails exactly at loops of links.
-/

namespace GameExport

open Relation (ReflTransGen TransGen)

namespace Generation

/-! ## The recursion -/

abbrev Attempt := ExceptT GenerationError Option

abbrev Writer := (opened : List UnitName) → (depth : Nat) → List Event → Attempt (List Placed)

section Recursion

variable (project : Project) (compiled : NameSet) (writing : UnitName) (writeBelow : Writer)

def writeBlock (opened : List UnitName) (depth : Nat) (events : List Event) :
    Attempt (List Placed) :=
  if events.isEmpty then pure []
  else do
    let inner ← writeBelow opened (depth + 1) events
    pure (⟨depth, .openBlock⟩ :: inner ++ [⟨depth, .closeBlock⟩])

/-- Write what a link leads to, unless it is called. A unit is not written inside of itself. -/
def writeLink (opened : List UnitName) (depth : Nat) (target : String) : Attempt (List Placed) :=
  match project.linked? target with
  | none => pure [⟨depth, .unknownLink target⟩]
  | some unit =>
      if isCall compiled writing unit then pure [⟨depth, .enter target⟩]
      else if unit ∈ opened then throw ⟨writing, .linksBack unit⟩
      else do
        let inner ← writeBelow (unit :: opened) depth (eventsOf project unit)
        pure (⟨depth, .begin unit⟩ :: inner ++ [⟨depth, .finish unit⟩])

def writeEvent (opened : List UnitName) (depth : Nat) : Event → Attempt (List Placed)
  | .standard instructions subEvents => do
      let inner ← writeBlock writeBelow opened (depth + 1) subEvents
      pure (⟨depth, .openBlock⟩ ::
        instructions.map (fun instruction => ⟨depth + 1, .perform instruction⟩) ++ inner ++
        [⟨depth, .closeBlock⟩])
  | .link target => writeLink project compiled writing writeBelow opened depth target
  | .code text _ subEvents => do
      let inner ← writeBlock writeBelow opened depth subEvents
      pure ((Text.lines text.toList).map (fun line => ⟨depth, .native line⟩) ++ inner)
  | .comment text => pure ((Text.lines text.toList).map fun line => ⟨depth, .comment line⟩)

end Recursion

def writeEvents (project : Project) (compiled : NameSet) (writing : UnitName) :
    (room : Nat) → Writer
  | 0 => fun _ _ _ => ExceptT.mk none
  | room + 1 => fun opened depth events => do
      let parts ← events.mapM
        (writeEvent project compiled writing (writeEvents project compiled writing room) opened
          depth)
      pure parts.flatten

def writeBody (project : Project) (compiled : NameSet) (unit : UnitName) (room : Nat) :
    Attempt (List Placed) :=
  match project.events? unit with
  | none => throw ⟨unit, .undeclared⟩
  | some events => writeEvents project compiled unit room [unit] 1 events

mutual
def heightOfEvent : Event → Nat
  | .standard _ subEvents => height subEvents + 1
  | .code _ _ subEvents => height subEvents + 1
  | .link _ => 0
  | .comment _ => 0

def height : List Event → Nat
  | [] => 0
  | event :: rest => max (heightOfEvent event) (height rest)
end

def tallest (project : Project) : Nat :=
  (project.sheets.map fun sheet => height sheet.2).foldr max 0

def roomFor (project : Project) : Nat := (sheetUnits project).length * (tallest project + 1)

/-! ## Expanding piece by piece -/

variable {project : Project} {compiled : NameSet} {writing : UnitName}

theorem expand_statement {unopened : List UnitName} {depth : Nat} {statement : Statement}
    {rest : List PlacedItem} :
    expand project compiled writing unopened ((depth, .statement statement) :: rest) = (do
      .ok (⟨depth, statement⟩ :: (← expand project compiled writing unopened rest))) := by
  rw [expand]

def expandLink (project : Project) (compiled : NameSet) (writing : UnitName)
    (unopened : List UnitName) (depth : Nat) (target : String) :
    Except GenerationError (List Placed) :=
  match project.linked? target with
  | none => .ok [⟨depth, .unknownLink target⟩]
  | some unit =>
      if isCall compiled writing unit then .ok [⟨depth, .enter target⟩]
      else if unit ∈ unopened then do
        let inner ← expand project compiled writing (without unopened unit)
          (layoutAll depth (eventsOf project unit))
        .ok (⟨depth, .begin unit⟩ :: inner ++ [⟨depth, .finish unit⟩])
      else .error ⟨writing, .linksBack unit⟩

theorem expand_link {unopened : List UnitName} {depth : Nat} {target : String}
    {rest : List PlacedItem} :
    expand project compiled writing unopened ((depth, .link target) :: rest) = (do
      let first ← expandLink project compiled writing unopened depth target
      let second ← expand project compiled writing unopened rest
      .ok (first ++ second)) := by
  rw [expand, expandLink]
  cases project.linked? target with
  | none => rfl
  | some unit =>
      dsimp only
      by_cases called : isCall compiled writing unit = true
      · simp only [called, if_true]
        rfl
      · by_cases free : unit ∈ unopened
        · simp only [called, if_false, free, if_true, Bool.false_eq_true]
          cases expand project compiled writing (without unopened unit)
              (layoutAll depth (eventsOf project unit)) with
          | error error => rfl
          | ok inner =>
              cases expand project compiled writing unopened rest with
              | error error => rfl
              | ok after => simp [bind, Except.bind]
        · simp only [called, if_false, free, Bool.false_eq_true]
          rfl

theorem expand_append {unopened : List UnitName} (items others : List PlacedItem) :
    expand project compiled writing unopened (items ++ others) = (do
      let first ← expand project compiled writing unopened items
      let second ← expand project compiled writing unopened others
      .ok (first ++ second)) := by
  induction items with
  | nil =>
      rw [List.nil_append, expand]
      cases expand project compiled writing unopened others with
      | error error => rfl
      | ok second => rfl
  | cons item rest induction =>
      rcases item with ⟨depth, item⟩
      cases item with
      | statement statement =>
          rw [List.cons_append, expand_statement, expand_statement, induction]
          cases expand project compiled writing unopened rest with
          | error error => rfl
          | ok first => cases expand project compiled writing unopened others <;> rfl
      | link target =>
          rw [List.cons_append, expand_link, expand_link, induction]
          cases expandLink project compiled writing unopened depth target with
          | error error => rfl
          | ok link =>
              cases expand project compiled writing unopened rest with
              | error error => rfl
              | ok first =>
                  cases expand project compiled writing unopened others with
                  | error error => rfl
                  | ok second => simp [bind, Except.bind]

theorem expand_placed (project : Project) (compiled : NameSet) (writing : UnitName)
    (unopened : List UnitName) (lines : List Placed) :
    expand project compiled writing unopened
      (lines.map fun line => placed line.depth line.statement) = .ok lines := by
  induction lines with
  | nil => rw [List.map_nil, expand]
  | cons line rest induction =>
      rw [List.map_cons, placed, expand_statement, induction]
      rfl

theorem expand_block {unopened : List UnitName} {depth : Nat} {events : List Event} :
    expand project compiled writing unopened
        (block depth events.isEmpty (layoutAll (depth + 1) events)) =
      if events.isEmpty then .ok [] else (do
        let inner ← expand project compiled writing unopened (layoutAll (depth + 1) events)
        .ok (⟨depth, .openBlock⟩ :: inner ++ [⟨depth, .closeBlock⟩])) := by
  cases events.isEmpty with
  | true => simp only [block, if_true, expand]
  | false =>
      have closing := expand_placed project compiled writing unopened [⟨depth, .closeBlock⟩]
      rw [List.map_cons, List.map_nil] at closing
      simp only [block, Bool.false_eq_true, if_false, placed, List.cons_append]
      rw [expand_statement, expand_append]
      change (do
        let after ← (do
          let first ← expand project compiled writing unopened (layoutAll (depth + 1) events)
          let second ← expand project compiled writing unopened [placed depth .closeBlock]
          .ok (first ++ second))
        _) = _
      rw [closing]
      cases expand project compiled writing unopened (layoutAll (depth + 1) events) <;> rfl

/-! ## The recursion gives what expanding gives -/

theorem run_bind_of_run {α β : Type} {attempt : Attempt α} {result : Except GenerationError α}
    {next : α → Attempt β} (value : α → Except GenerationError β)
    (first : attempt.run = some result)
    (second : ∀ given, (next given).run = some (value given)) :
    (attempt >>= next).run = some (result >>= value) := by
  rw [ExceptT.run_bind, first]
  cases result with
  | error error => rfl
  | ok given => exact second given

def AreUnopened (project : Project) (opened unopened : List UnitName) : Prop :=
  ∀ unit ∈ sheetUnits project, unit ∈ unopened ↔ unit ∉ opened

theorem AreUnopened.open {opened unopened : List UnitName} {unit : UnitName}
    (apart : AreUnopened project opened unopened) :
    AreUnopened project (unit :: opened) (without unopened unit) := by
  intro other declared
  rw [mem_without, apart other declared, List.mem_cons, not_or, and_comm]

theorem le_foldr_max {sizes : List Nat} {size : Nat} (member : size ∈ sizes) :
    size ≤ sizes.foldr max 0 := by
  induction sizes with
  | nil => cases member
  | cons first rest induction =>
      rw [List.foldr_cons]
      rcases List.mem_cons.mp member with rfl | member
      · exact Nat.le_max_left _ _
      · exact Nat.le_trans (induction member) (Nat.le_max_right _ _)

theorem height_le_tallest (project : Project) (unit : UnitName) :
    height (eventsOf project unit) ≤ tallest project := by
  cases found : project.events? unit with
  | none =>
      rw [eventsOf, found]
      exact Nat.zero_le _
  | some events =>
      have member := Project.mem_sheets.mpr (Project.hasEvents_of_events? found)
      have listed := List.mem_map_of_mem (f := fun sheet => height sheet.2) member
      rw [eventsOf_eq found]
      exact le_foldr_max listed

theorem heightOfEvent_le {event : Event} {events : List Event} (member : event ∈ events) :
    heightOfEvent event ≤ height events := by
  induction events with
  | nil => cases member
  | cons first rest induction =>
      rw [height]
      rcases List.mem_cons.mp member with rfl | member
      · exact Nat.le_max_left _ _
      · exact Nat.le_trans (induction member) (Nat.le_max_right _ _)

def HasRoom (project : Project) (unopened : List UnitName) (size room : Nat) : Prop :=
  size + unopened.length * (tallest project + 1) < room

theorem HasRoom.below {unopened : List UnitName} {size room : Nat}
    (fits : HasRoom project unopened (size + 1) (room + 1)) :
    HasRoom project unopened size room := by
  unfold HasRoom at fits ⊢
  omega

def WritesBelow (project : Project) (compiled : NameSet) (writing : UnitName) (room : Nat)
    (write : Writer) : Prop :=
  ∀ opened unopened depth events, AreUnopened project opened unopened →
    HasRoom project unopened (height events) room →
      (write opened depth events).run =
        some (expand project compiled writing unopened (layoutAll depth events))

section Step

variable {room : Nat} {write : Writer} {opened unopened : List UnitName}

theorem run_writeBlock (below : WritesBelow project compiled writing room write)
    (apart : AreUnopened project opened unopened) {events : List Event}
    (fits : HasRoom project unopened (height events) room) (depth : Nat) :
    (writeBlock write opened depth events).run = some (expand project compiled writing unopened
      (block depth events.isEmpty (layoutAll (depth + 1) events))) := by
  rw [expand_block, writeBlock]
  cases events.isEmpty with
  | true => rfl
  | false =>
      simp only [Bool.false_eq_true, if_false]
      exact run_bind_of_run _ (below opened unopened (depth + 1) events apart fits) fun _ => rfl

theorem run_writeLink (below : WritesBelow project compiled writing room write)
    (apart : AreUnopened project opened unopened)
    (fits : HasRoom project unopened 0 (room + 1)) (depth : Nat) (target : String) :
    (writeLink project compiled writing write opened depth target).run =
      some (expandLink project compiled writing unopened depth target) := by
  rw [writeLink, expandLink]
  cases leads : project.linked? target with
  | none => rfl
  | some unit =>
      dsimp only
      cases called : isCall compiled writing unit with
      | true => rfl
      | false =>
          have declared : unit ∈ sheetUnits project :=
            mem_sheetUnits.mpr (Project.linked?_eq_some.mp leads).hasEvents
          by_cases isOpen : unit ∈ opened
          · have notFree : unit ∉ unopened := fun free => (apart unit declared).mp free isOpen
            simp only [Bool.false_eq_true, if_false, isOpen, if_true, notFree]
            rfl
          · have free : unit ∈ unopened := (apart unit declared).mpr isOpen
            have inside : HasRoom project (without unopened unit)
                (height (eventsOf project unit)) room := by
              have fewer := Nat.mul_le_mul_right (tallest project + 1) (length_without_lt free)
              have bounded := height_le_tallest project unit
              rw [Nat.succ_mul] at fewer
              unfold HasRoom at fits ⊢
              omega
            simp only [Bool.false_eq_true, if_false, isOpen, free, if_true]
            exact run_bind_of_run _ (below _ _ depth _ apart.open inside) fun _ => rfl

theorem run_writeEvent (below : WritesBelow project compiled writing room write)
    (apart : AreUnopened project opened unopened) (depth : Nat) {event : Event}
    (fits : HasRoom project unopened (heightOfEvent event) (room + 1)) :
    (writeEvent project compiled writing write opened depth event).run =
      some (expand project compiled writing unopened (layout depth event)) := by
  cases event with
  | standard instructions subEvents =>
      rw [heightOfEvent] at fits
      have opening := expand_placed project compiled writing unopened (⟨depth, .openBlock⟩ ::
          instructions.map fun instruction => ⟨depth + 1, .perform instruction⟩)
      have closing := expand_placed project compiled writing unopened [⟨depth, .closeBlock⟩]
      simp only [List.map_cons, List.map_map, List.map_nil, Function.comp_def] at opening closing
      rw [layout, expand_append, expand_append, opening, closing, writeEvent]
      refine (run_bind_of_run (fun inner => .ok _)
        (run_writeBlock below apart fits.below (depth + 1)) fun _ => rfl).trans ?_
      cases expand project compiled writing unopened
        (block (depth + 1) subEvents.isEmpty (layoutAll (depth + 2) subEvents)) <;> rfl
  | link target =>
      rw [writeEvent, layout, expand_link, run_writeLink below apart fits depth target, expand]
      cases expandLink project compiled writing unopened depth target with
      | error error => rfl
      | ok lines => simp [bind, Except.bind]
  | code text dependencies subEvents =>
      rw [heightOfEvent] at fits
      have lines := expand_placed project compiled writing unopened
        ((Text.lines text.toList).map fun line => ⟨depth, .native line⟩)
      simp only [List.map_map, Function.comp_def] at lines
      rw [layout, expand_append, lines, writeEvent]
      exact run_bind_of_run (fun inner => .ok (_ ++ inner))
        (run_writeBlock below apart fits.below depth) fun _ => rfl
  | comment text =>
      have lines := expand_placed project compiled writing unopened
        ((Text.lines text.toList).map fun line => ⟨depth, .comment line⟩)
      simp only [List.map_map, Function.comp_def] at lines
      rw [layout, lines]
      rfl

theorem run_writeParts {step : Event → Attempt (List Placed)} {depth : Nat} {events : List Event}
    (each : ∀ event ∈ events, (step event).run =
      some (expand project compiled writing unopened (layout depth event))) :
    (do
        let parts ← events.mapM step
        pure parts.flatten : Attempt (List Placed)).run =
      some (expand project compiled writing unopened (layoutAll depth events)) := by
  induction events with
  | nil =>
      rw [layoutAll, expand]
      rfl
  | cons event rest induction =>
      have first := each event List.mem_cons_self
      have others := induction fun event member => each event (List.mem_cons_of_mem _ member)
      have parts : (do
          let parts ← (event :: rest).mapM step
          pure parts.flatten : Attempt (List Placed)) = (do
          let part ← step event
          let after ← (do
            let parts ← rest.mapM step
            pure parts.flatten)
          pure (part ++ after)) := by
        simp only [List.mapM_cons, bind_assoc, pure_bind, List.flatten_cons]
      rw [layoutAll, expand_append, parts]
      exact run_bind_of_run _ first fun _ => run_bind_of_run _ others fun _ => rfl

end Step

/-- With enough room, the recursion gives what expanding gives. -/
theorem writesBelow_writeEvents (project : Project) (compiled : NameSet) (writing : UnitName)
    (room : Nat) :
    WritesBelow project compiled writing room (writeEvents project compiled writing room) := by
  induction room with
  | zero => exact fun _ _ _ _ _ fits => absurd fits (Nat.not_lt_zero _)
  | succ room below =>
      -- Each event of the forest is written by calls from this one, which have room for one less.
      intro opened unopened depth events apart fits
      have each : ∀ event ∈ events, (writeEvent project compiled writing
          (writeEvents project compiled writing room) opened depth event).run =
          some (expand project compiled writing unopened (layout depth event)) := by
        intro event member
        have lower := heightOfEvent_le member
        refine run_writeEvent below apart depth ?_
        unfold HasRoom at fits ⊢
        omega
      exact run_writeParts each

theorem run_writeBody {unit : UnitName} {events : List Event}
    (declared : project.HasEvents unit events) {room : Nat} (enough : roomFor project ≤ room) :
    (writeBody project compiled unit room).run = some (body project compiled unit) := by
  rcases declared.exists_events? with ⟨first, found⟩
  have apart : AreUnopened project [unit] (without (sheetUnits project) unit) := by
    intro other isDeclared
    simp [mem_without, isDeclared]
  have fits : HasRoom project (without (sheetUnits project) unit) (height first) room := by
    have isSheet : unit ∈ sheetUnits project := mem_sheetUnits.mpr ⟨_, declared⟩
    have fewer := Nat.mul_le_mul_right (tallest project + 1) (length_without_lt isSheet)
    have bounded := height_le_tallest project unit
    rw [eventsOf_eq found] at bounded
    rw [Nat.succ_mul] at fewer
    unfold roomFor at enough
    unfold HasRoom
    omega
  rw [writeBody, body, found]
  exact writesBelow_writeEvents project compiled unit room _ _ 1 first apart fits

/-! ## Code -/

def codeOf (project : Project) (unit : UnitName) (lines : List Placed) : String :=
  (Source.mk unit project.name lines).text

theorem generate_eq {unit : UnitName} :
    generate project unit compiled = (body project compiled unit).map (codeOf project unit) := by
  rw [generate, source]
  cases body project compiled unit <;> rfl

/-- The code of a unit fails at a link that leads back exactly if a loop of links can be reached. -/
theorem generate_linksBack_iff {unit : UnitName} {events : List Event}
    (declared : project.HasEvents unit events) :
    (∃ other, generate project unit .empty = .error ⟨unit, .linksBack other⟩) ↔
      ∃ member, ReflTransGen project.LinksTo unit member ∧
        TransGen project.LinksTo member member := by
  rw [generate_eq]
  constructor
  · rintro ⟨other, fails⟩
    apply Classical.byContradiction
    intro noLoop
    have free : project.LoopFree unit := fun member chain loop => noLoop ⟨member, chain, loop⟩
    rcases body_of_loopFree .empty declared free with ⟨lines, written⟩
    rw [written] at fails
    cases fails
  · rintro ⟨member, chain, loop⟩
    rcases body_cases .empty declared with ⟨lines, written⟩ | ⟨other, fails⟩
    · exact absurd loop (loopFree_of_body written member chain)
    · exact ⟨other, by rw [fails]; rfl⟩

/-- Writing the code of a unit always ends, with no more calls open at once than there is room for
every sheet with all its events. Without calls it fails exactly if a loop of links can be reached,
and if the analysis of inclusions has an answer for the unit, then it succeeds whatever is
called. -/
theorem generate_ends {project : Project} {unit : UnitName} {events : List Event}
    (declared : project.HasEvents unit events) (compiled : NameSet) :
    (∃ result, generate project unit compiled = result.map (codeOf project unit) ∧
      ∀ room, roomFor project ≤ room →
        (writeBody project compiled unit room).run = some result) ∧
    ((∃ other, generate project unit .empty = .error ⟨unit, .linksBack other⟩) ↔
      ∃ member, ReflTransGen project.LinksTo unit member ∧
        TransGen project.LinksTo member member) ∧
    ∀ requirements, project.inclusionAnalysis.needs unit = .ok requirements →
      ∃ code, generate project unit compiled = .ok code := by
  refine ⟨⟨_, generate_eq, fun room => run_writeBody declared⟩, generate_linksBack_iff declared, ?_⟩
  intro requirements answered
  have free := (Project.of_needs_eq_ok answered).2.1.loopFree
  rcases exists_source compiled declared free with ⟨code, written⟩
  exact ⟨code.text, by rw [generate, written]; rfl⟩

def ringGame : Project :=
  { shopGame with
    externalEvents := shopGame.externalEvents ++ [⟨"Ring", "", [.standard [] [.link "Ring"]]⟩] }

/-- The level can be written, though the shop is called, and the ring cannot. -/
theorem generate_ends_ringGame :
    (shopGame.HasEvents (.scene "Level") [.link "Shop", .code "think();" [] []] ∧
      ∃ code, generate shopGame (.scene "Level") (.ofList ["Shop"]) = .ok code) ∧
    ringGame.HasEvents (.externalEvents "Ring") [.standard [] [.link "Ring"]] ∧
      ∃ other, generate ringGame (.externalEvents "Ring") .empty =
        .error ⟨.externalEvents "Ring", .linksBack other⟩ := by
  have ringDeclared : ExternalEvents.mk "Ring" "" [.standard [] [.link "Ring"]] ∈
      ringGame.externalEvents := List.mem_append_right _ (List.mem_singleton_self _)
  have ring : ringGame.HasEvents (.externalEvents "Ring") [.standard [] [.link "Ring"]] :=
    .sheet ringDeclared
  have links : ringGame.LinksTo (.externalEvents "Ring") (.externalEvents "Ring") := by
    have found : ringGame.events? (.externalEvents "Ring") =
        some [.standard [] [.link "Ring"]] := by cbv
    have stands : (Event.link "Ring").Stands [.standard [] [.link "Ring"]] :=
      .inside (List.mem_singleton_self _) (.direct (List.mem_singleton_self _))
    refine ⟨"Ring", ?_, .sheet ring.declares⟩
    rwa [eventsOf, found]
  exact ⟨⟨hasEvents_shopGame, (generate_ends hasEvents_shopGame _).2.2 _ needs_shopGame⟩,
    ring, (generate_ends ring .empty).2.1.mpr ⟨_, .refl, .single links⟩⟩

end Generation

end GameExport
