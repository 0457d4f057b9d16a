import GameExport.Proofs.Generation.Links

/-! # Putting the lines of called sheets back

A sheet that is compiled on its own is called where its events would stand. Main statement: to
replace each call by the lines of the called sheet, and the calls in those again, comes to an end
and gives the lines that are written if nothing is compiled on its own.
-/

namespace GameExport

namespace Generation

/-- Whether a statement only tells where a unit that is written in place starts or ends. -/
def isMark : Statement → Bool
  | .begin _ | .finish _ => true
  | _ => false

def unmarked (statements : List Statement) : List Statement :=
  statements.filter fun statement => !isMark statement

/-- The lines of a body, without the marks and whatever their depths. A line is one statement that
is laid out, also where its text has several lines, as a mark has that shows a name with a line
end. -/
def linesOf (body : List Placed) : List Statement := unmarked (body.map Placed.statement)

/-- Each call among lines is replaced by the lines of the called sheet, joined in the same way. -/
inductive Joined (project : Project) (compiled : NameSet) : List Statement → List Statement → Prop
  | nil : Joined project compiled [] []
  | keep {line : Statement} {rest result : List Statement} (noCall : ∀ sheet, line ≠ .enter sheet)
      (later : Joined project compiled rest result) :
      Joined project compiled (line :: rest) (line :: result)
  | call {sheet : String} {called : Source} {inner rest result : List Statement}
      (written : source project compiled (.externalEvents sheet) = .ok called)
      (within : Joined project compiled (linesOf called.body) inner)
      (later : Joined project compiled rest result) :
      Joined project compiled (.enter sheet :: rest) (inner ++ result)

variable {project : Project} {compiled : NameSet} {writing unit : UnitName}

theorem unmarked_cons_mark {mark : Statement} {rest : List Statement}
    (isMarked : isMark mark = true) : unmarked (mark :: rest) = unmarked rest := by
  simp [unmarked, isMarked]

theorem unmarked_cons_line {line : Statement} {rest : List Statement}
    (isLine : isMark line = false) : unmarked (line :: rest) = line :: unmarked rest := by
  simp [unmarked, isLine]

theorem unmarked_inPlace {inner after : List Statement} :
    unmarked (.begin unit :: inner ++ .finish unit :: after) =
      unmarked inner ++ unmarked after := by
  rw [List.cons_append, unmarked_cons_mark rfl, unmarked, List.filter_append, ← unmarked,
    ← unmarked, unmarked_cons_mark rfl]

theorem isMark_of_isOfEvent {statement : Statement} (ofEvent : isOfEvent statement = true) :
    isMark statement = false ∧ ∀ sheet, statement ≠ .enter sheet := by
  cases statement <;> simp_all [isOfEvent, isMark]

/-! ## Joining -/

theorem Joined.append {first second firstResult secondResult : List Statement}
    (joined : Joined project compiled first firstResult)
    (joinedNext : Joined project compiled second secondResult) :
    Joined project compiled (first ++ second) (firstResult ++ secondResult) := by
  induction joined with
  | nil => exact joinedNext
  | keep noCall later induction => exact .keep noCall induction
  | call written within later inner outer =>
      rw [List.cons_append, List.append_assoc]
      exact .call written within outer

/-- There is at most one way to replace all calls. -/
theorem Joined.unique {lines result other : List Statement}
    (joined : Joined project compiled lines result)
    (joinedAgain : Joined project compiled lines other) : other = result := by
  induction joined generalizing other with
  | nil =>
      cases joinedAgain
      rfl
  | keep noCall later induction =>
      cases joinedAgain with
      | keep _ laterAgain => rw [induction laterAgain]
      | call => exact absurd rfl (noCall _)
  | call written within later inner outer =>
      cases joinedAgain with
      | keep noCall => exact absurd rfl (noCall _)
      | call writtenAgain withinAgain laterAgain =>
          rw [written, Except.ok.injEq] at writtenAgain
          subst writtenAgain
          rw [inner withinAgain, outer laterAgain]

/-! ## Calls against writing in place -/

/-- If the same items are written without and with calls, for whatever unit, then joining turns the
latter into the former. -/
theorem joined_of_writes {inlining : UnitName} {unopened : List UnitName} {items : List Item}
    {inlined : List Statement} (inPlace : Writes project .empty inlining unopened items inlined)
    {opened : List UnitName} {calling : List Statement}
    (writes : Writes project compiled writing opened items calling)
    (ofEvents : OfEvents items) :
    Joined project compiled (unmarked calling) (unmarked inlined) := by
  -- A sheet that is called has a body of its own, since all that is written in place is free of
  -- loops. That body belongs to another unit and opens units afresh.
  induction inPlace generalizing writing opened calling with
  | nil =>
      cases writes
      exact .nil
  | statement later induction =>
      cases writes with
      | statement laterCalling =>
          have first := isMark_of_isOfEvent (ofEvents _ List.mem_cons_self)
          rw [unmarked_cons_line first.1, unmarked_cons_line first.1]
          exact .keep first.2 (induction laterCalling ofEvents.rest)
  | unknown nothing later induction =>
      cases writes with
      | unknown _ laterCalling =>
          rw [unmarked_cons_line rfl, unmarked_cons_line rfl]
          exact .keep nofun (induction laterCalling ofEvents.rest)
      | enter leads => simp [nothing] at leads
      | inPlace leads => simp [nothing] at leads
  | enter _ called => rw [isCall_empty] at called; cases called
  | inPlace leads notCalled free within later inner outer =>
      cases writes with
      | unknown nothing => simp [nothing] at leads
      | inPlace leadsCalling _ _ withinCalling laterCalling =>
          rw [leads, Option.some.injEq] at leadsCalling
          subst leadsCalling
          rw [unmarked_inPlace, unmarked_inPlace]
          exact (inner withinCalling (ofEvents_itemsOf _)).append (outer laterCalling ofEvents.rest)
      | enter leadsCalling called laterCalling =>
          rw [leads, Option.some.injEq] at leadsCalling
          subst leadsCalling
          have resolves := Project.linked?_eq_some.mp leads
          have loopFree := loopFree_of_writes (.inPlace leads notCalled free within later) _ _
            List.mem_cons_self leads
          rcases resolves.hasEvents with ⟨events, declared⟩
          rcases exists_source compiled declared loopFree with ⟨code, written⟩
          have joined :=
            inner (writes_of_body (of_source_eq_ok written).2) (ofEvents_itemsOf _)
          rcases of_isCall leads called with ⟨rfl, _, _⟩
          rw [unmarked_cons_line rfl, unmarked_inPlace]
          exact .call written joined (outer laterCalling ofEvents.rest)

/-- Compiling sheets on their own does not change what a unit does. If each call in its source is
replaced by the lines of the called sheet, and so on, then what comes out is, apart from depths and
marks, the source that is written when every sheet is written in place. -/
theorem joined_lines_iff {events : List Event} (declared : project.HasEvents unit events)
    {requirements : Requirements}
    (answered : project.inclusionAnalysis.needs unit = .ok requirements) (compiled : NameSet) :
    ∃ calling inlined, source project compiled unit = .ok calling ∧
      source project .empty unit = .ok inlined ∧
      ∀ result, Joined project compiled (linesOf calling.body) result ↔
        result = linesOf inlined.body := by
  have free := (Project.of_needs_eq_ok answered).2.1.loopFree
  rcases exists_source compiled declared free with ⟨calling, written⟩
  rcases exists_source .empty declared free with ⟨inlined, writtenInPlace⟩
  refine ⟨calling, inlined, written, writtenInPlace, fun result => ?_⟩
  have joined : Joined project compiled (linesOf calling.body) (linesOf inlined.body) :=
    joined_of_writes (writes_of_body (of_source_eq_ok writtenInPlace).2)
      (writes_of_body (of_source_eq_ok written).2) (ofEvents_itemsOf _)
  constructor
  · exact fun joinedAgain => joined.unique joinedAgain
  · rintro rfl
    exact joined

/-- The level calls the shop, which calls the till. -/
theorem joined_lines_iff_shopGame :
    shopGame.HasEvents (.scene "Level") [.link "Shop", .code "think();" [] []] ∧
      (shopGame.inclusionAnalysis.needs (.scene "Level")).isOk = true ∧
      ∀ result, Joined shopGame (.ofList ["Shop", "Till"])
          [.enter "Shop", .native "think();".toList] result ↔
        result =
          [.comment "sells".toList, .native "count();".toList, .native "think();".toList] := by
  refine ⟨hasEvents_shopGame, by rw [needs_shopGame]; rfl, fun result => ?_⟩
  rcases joined_lines_iff hasEvents_shopGame needs_shopGame (.ofList ["Shop", "Till"]) with
    ⟨calling, inlined, written, writtenInPlace, joined⟩
  have callingLines : linesOf calling.body = [.enter "Shop", .native "think();".toList] := by
    have lines := congrArg (Except.map (linesOf ·.body)) written
    have computed :
        (source shopGame (.ofList ["Shop", "Till"]) (.scene "Level")).map (linesOf ·.body) =
          .ok [.enter "Shop", .native "think();".toList] := by cbv
    exact Except.ok.inj (lines.symm.trans computed)
  have inlinedLines : linesOf inlined.body =
      [.comment "sells".toList, .native "count();".toList, .native "think();".toList] := by
    have lines := congrArg (Except.map (linesOf ·.body)) writtenInPlace
    have computed : (source shopGame .empty (.scene "Level")).map (linesOf ·.body) =
      .ok [.comment "sells".toList, .native "count();".toList, .native "think();".toList] := by cbv
    exact Except.ok.inj (lines.symm.trans computed)
  rw [← callingLines, ← inlinedLines]
  exact joined result

end Generation

end GameExport
