import GameExport.Proofs.Generation.Remarks
import GameExport.Proofs.Native.Lines

/-! # Remarks are not code

What a remark says is up to the project. Main statement: if every text that a project remarks stays
on its line, then projects that differ in remarks alone are written as the same tokens.
-/

namespace GameExport.Generation

open Native

/-! ## Bodies -/

def nativeLines (depth : Nat) (code : List Char) : List Placed :=
  (Text.lines code).map fun line => ⟨depth, .native line⟩

/-- Native code that closes every comment and literal that it opens, and ends its last token. -/
def IsWhole (code : List Char) : Prop :=
  ∀ depth, (Place.between.read (plain (bodyText (nativeLines depth code)))).2 = .between

/-- What an event says stays where it is written. -/
def StaysInPlace (project : Project) : Event → Prop
  | .standard _ _ => True
  | .link target => project.linked? target = none → IsLine target.toList
  | .code text _ _ => IsWhole text.toList
  | .comment text => ∀ line ∈ Text.lines text.toList, '\r' ∉ line ∧ line.getLast? ≠ some '\\'

/-- Items at which a reader that is at a place is between tokens wherever a remark is written. -/
inductive Sound (project : Project) : Place → List PlacedItem → Prop
  | nil : Sound project .between []
  | code {place : Place} {depth : Nat} {statement : Statement} {rest : List PlacedItem}
      (code : isCode statement = true)
      (later : Sound project (placeBehind place ⟨depth, statement⟩) rest) :
      Sound project place ((depth, .statement statement) :: rest)
  | remark {depth : Nat} {statement : Statement} {rest : List PlacedItem}
      (remark : isCode statement = false) (silent : Placed.IsSilent ⟨depth, statement⟩)
      (later : Sound project .between rest) :
      Sound project .between ((depth, .statement statement) :: rest)
  | link {depth : Nat} {target : String} {rest : List PlacedItem}
      (isLine : project.linked? target = none → IsLine target.toList)
      (later : Sound project .between rest) :
      Sound project .between ((depth, .link target) :: rest)

variable {project : Project}

theorem Sound.append {place : Place} {front back : List PlacedItem}
    (first : Sound project place front) (second : Sound project .between back) :
    Sound project place (front ++ back) := by
  induction first with
  | nil => exact second
  | code code later induction => exact .code code induction
  | remark remark silent later induction => exact .remark remark silent induction
  | link isLine later induction => exact .link isLine induction

theorem Sound.each {α : Type} {write : α → PlacedItem} {values : List α}
    (each : ∀ value ∈ values, Sound project .between [write value]) :
    Sound project .between (values.map write) := by
  induction values with
  | nil => exact .nil
  | cons value rest induction =>
      have later := induction fun other member => each other (List.mem_cons_of_mem _ member)
      exact (each value List.mem_cons_self).append later

theorem sound_closed (project : Project) {depth : Nat} {statement : Statement}
    (code : isCode statement = true) (closed : Placed.IsClosed ⟨depth, statement⟩) :
    Sound project .between [placed depth statement] := by
  refine .code code ?_
  rw [Placed.IsClosed] at closed
  rw [closed]
  exact .nil

theorem sound_native {depth : Nat} {place : Place} {lines : List (List Char)}
    (ends : (place.read (plain (bodyText (lines.map (⟨depth, .native ·⟩))))).2 = .between) :
    Sound project place (lines.map fun line => placed depth (.native line)) := by
  induction lines generalizing place with
  | nil =>
      obtain rfl : place = .between := ends
      exact .nil
  | cons line rest induction =>
      refine .code rfl (induction ?_)
      have text : bodyText ((line :: rest).map (⟨depth, .native ·⟩)) =
          Placed.text ⟨depth, .native line⟩ ++ bodyText (rest.map (⟨depth, .native ·⟩)) :=
        List.flatMap_cons ..
      rwa [text, plain_line_append, Place.read_append] at ends

theorem sound_block (depth : Nat) (isEmpty : Bool) {inner : List PlacedItem}
    (within : Sound project .between inner) :
    Sound project .between (block depth isEmpty inner) := by
  cases isEmpty with
  | true => exact .nil
  | false =>
      have opens := sound_closed project rfl (isClosed_openBlock depth)
      have closes := sound_closed project rfl (isClosed_closeBlock depth)
      exact opens.append (within.append closes)

mutual
theorem sound_layout : ∀ (depth : Nat) (event : Event), StaysInPlace project event →
    (∀ inner : Event, inner.Stands event.subEvents → StaysInPlace project inner) →
    Sound project .between (layout depth event)
  | depth, .standard instructions subEvents, _, below => by
      have opens := sound_closed project rfl (isClosed_openBlock depth)
      have closes := sound_closed project rfl (isClosed_closeBlock depth)
      have performs : Sound project .between
          (instructions.map fun instruction => placed (depth + 1) (.perform instruction)) :=
        .each fun instruction _ =>
          sound_closed project rfl (isClosed_perform (depth + 1) instruction)
      have inner := sound_block (depth + 1) subEvents.isEmpty
        (sound_layoutAll (depth + 2) subEvents below)
      exact (((opens.append performs).append inner).append closes)
  | depth, .link target, stays, _ => .link stays .nil
  | depth, .code text dependencies subEvents, stays, below => by
      have inner := sound_block depth subEvents.isEmpty
        (sound_layoutAll (depth + 1) subEvents below)
      exact (sound_native (stays depth)).append inner
  | depth, .comment text, stays, _ => by
      refine .each fun line member => .remark rfl ?_ .nil
      have isLine : IsLine line := ⟨Text.newline_notMem_lines member, (stays line member).1⟩
      exact isSilent_comment depth isLine (stays line member).2

theorem sound_layoutAll : ∀ (depth : Nat) (events : List Event),
    (∀ event : Event, event.Stands events → StaysInPlace project event) →
    Sound project .between (layoutAll depth events)
  | depth, [], _ => .nil
  | depth, event :: rest, stays => by
      have first := sound_layout depth event (stays event (.direct List.mem_cons_self))
        fun inner stands => stays inner (Event.stands_cons.mpr (.inr (.inl stands)))
      have later := sound_layoutAll depth rest
        fun other stands => stays other (Event.stands_cons.mpr (.inr (.inr stands)))
      exact first.append later
end

/-- From a place on, a body is read as its lines that are not remarks, up to a place between
tokens. -/
def ReadsAsCode (place : Place) (body : List Placed) : Prop :=
  place.read (plain (bodyText body)) = place.read (plain (bodyText (codeLines body))) ∧
    (place.read (plain (bodyText body))).2 = .between

theorem read_cons (place : Place) (line : Placed) (body : List Placed) :
    place.read (plain (bodyText (line :: body))) =
      ((place.read (plain line.text)).1 ++
          ((placeBehind place line).read (plain (bodyText body))).1,
        ((placeBehind place line).read (plain (bodyText body))).2) := by
  have text : bodyText (line :: body) = line.text ++ bodyText body := List.flatMap_cons ..
  rw [text, plain_line_append, Place.read_append]
  rfl

namespace ReadsAsCode

theorem nil : ReadsAsCode .between [] := ⟨rfl, rfl⟩

theorem code {place : Place} {line : Placed} {body : List Placed}
    (code : isCode line.statement = true) (later : ReadsAsCode (placeBehind place line) body) :
    ReadsAsCode place (line :: body) := by
  rw [ReadsAsCode, codeLines_cons code, read_cons, read_cons, later.1]
  exact ⟨rfl, later.1 ▸ later.2⟩

theorem remark {line : Placed} {body : List Placed} (remark : isCode line.statement = false)
    (silent : line.IsSilent) (later : ReadsAsCode .between body) :
    ReadsAsCode .between (line :: body) := by
  have behind : placeBehind .between line = .between := silent.isClosed
  rw [ReadsAsCode, codeLines_remark remark, read_cons, behind, silent]
  exact later

theorem append {place : Place} {front back : List Placed} (first : ReadsAsCode place front)
    (second : ReadsAsCode .between back) : ReadsAsCode place (front ++ back) := by
  have text (one other : List Placed) : bodyText (one ++ other) = bodyText one ++ bodyText other :=
    List.flatMap_append ..
  have firstToo := first.1 ▸ first.2
  rw [ReadsAsCode, codeLines_append, text, text, plain_bodyText_append, plain_bodyText_append,
    Place.read_append, Place.read_append, first.2, firstToo, first.1, second.1]
  exact ⟨rfl, second.1 ▸ second.2⟩

theorem closed {line : Placed} (code : isCode line.statement = true) (closed : line.IsClosed) :
    ReadsAsCode .between [line] := by
  refine .code code ?_
  rw [Placed.IsClosed] at closed
  rw [closed]
  exact .nil

end ReadsAsCode

/-- What the units of a project say stays where it is written. -/
structure RemarksStay (project : Project) : Prop where
  name : IsLine project.name.toList
  unit : ∀ {unit events}, project.events? unit = some events → IsLine unit.name.toList
  event : ∀ {unit} {event : Event}, event.Stands (eventsOf project unit) →
    StaysInPlace project event

theorem exists_of_bind_eq_ok {α β ε : Type} {first : Except ε α} {next : α → Except ε β}
    {result : β} (same : first >>= next = .ok result) :
    ∃ value, first = .ok value ∧ next value = .ok result := by
  cases first with
  | error error => cases same
  | ok value => exact ⟨value, rfl, same⟩

theorem readsAsCode_expand {compiled : NameSet} {writing : UnitName}
    (stays : RemarksStay project) {unopened : List UnitName} {items : List PlacedItem}
    {place : Place} (sound : Sound project place items) {body : List Placed}
    (expanded : expand project compiled writing unopened items = .ok body) :
    ReadsAsCode place body := by
  -- The reader's place is carried along the items: native code may leave it inside a comment or a
  -- literal, and soundness says that it is between tokens again before the next remark or link.
  fun_induction expand project compiled writing unopened items generalizing place body with
  | case1 unopened =>
      cases expanded
      cases sound
      exact .nil
  | case2 unopened depth statement rest induction =>
      rcases exists_of_bind_eq_ok expanded with ⟨after, later, same⟩
      cases same
      cases sound with
      | code code sound => exact .code code (induction sound later)
      | remark remark silent sound => exact .remark remark silent (induction sound later)
  | case3 unopened depth target rest nothing induction =>
      rcases exists_of_bind_eq_ok expanded with ⟨after, later, same⟩
      cases same
      cases sound with
      | link isLine sound =>
          have silent := isSilent_unknownLink depth (isLine nothing)
          exact .remark rfl silent (induction sound later)
  | case4 unopened depth target rest unit leads called induction =>
      rcases exists_of_bind_eq_ok expanded with ⟨after, later, same⟩
      cases same
      cases sound with
      | link _ sound =>
          have enters := ReadsAsCode.closed rfl (isClosed_enter depth target)
          exact enters.append (induction sound later)
  | case5 unopened depth target rest unit leads notCalled free inner outer =>
      rcases exists_of_bind_eq_ok expanded with ⟨middle, within, expanded⟩
      rcases exists_of_bind_eq_ok expanded with ⟨after, later, same⟩
      cases same
      cases sound with
      | link _ sound =>
          rcases (Project.linked?_eq_some.mp leads).hasEvents with ⟨_, declared⟩
          rcases declared.exists_events? with ⟨events, found⟩
          have isLine := stays.unit found
          have begins := ReadsAsCode.closed rfl (isSilent_begin depth isLine).isClosed
          have finishes := ReadsAsCode.closed rfl (isSilent_finish depth isLine).isClosed
          have soundToo := sound_layoutAll depth (eventsOf project unit)
            fun event stands => stays.event stands
          exact (begins.append (inner soundToo within)).append
            (finishes.append (outer sound later))
  | case6 unopened depth target rest unit leads notCalled opened => cases expanded

theorem isLine_of_body {compiled : NameSet} {unit : UnitName} {lines : List Placed}
    (stays : RemarksStay project) (written : body project compiled unit = .ok lines) :
    IsLine unit.name.toList := by
  unfold body at written
  split at written
  · cases written
  · exact stays.unit ‹_›

theorem readsAsCode_body {compiled : NameSet} {unit : UnitName} {lines : List Placed}
    (stays : RemarksStay project) (written : body project compiled unit = .ok lines) :
    ReadsAsCode .between lines := by
  unfold body at written
  split at written
  · cases written
  · rename_i events found
    have sound := sound_layoutAll 1 events fun event stands =>
      stays.event (eventsOf_eq found ▸ stands)
    exact readsAsCode_expand stays sound written

/-! ## Sources -/

/-- A text is read as tokens, and what follows it as if it stood alone. -/
def ReadsAs (text : List Char) (told : List Lexeme) : Prop :=
  ∀ code, tokens (text ++ code) = told ++ tokens code

/-- What follows a text is read as if it stood alone. -/
def IsClosedText (text : List Char) : Prop := ∃ told, ReadsAs text told

theorem ReadsAs.append {front back : List Char} {told later : List Lexeme}
    (first : ReadsAs front told) (second : ReadsAs back later) :
    ReadsAs (front ++ back) (told ++ later) := by
  intro code
  rw [List.append_assoc, first, second, List.append_assoc]

theorem IsClosedText.append {front back : List Char} (first : IsClosedText front)
    (second : IsClosedText back) : IsClosedText (front ++ back) := by
  rcases first with ⟨told, first⟩
  rcases second with ⟨later, second⟩
  exact ⟨told ++ later, first.append second⟩

theorem readsAs_line {line : List Char} {told : List Lexeme}
    (reads : Place.between.read (plain (line ++ ['\n'])) = (told, .between)) :
    ReadsAs (line ++ ['\n']) told := by
  intro code
  simpa using tokens_append reads code

theorem isClosedText_line {line : List Char}
    (reads : (Place.between.read (plain (line ++ ['\n']))).2 = .between) :
    IsClosedText (line ++ ['\n']) :=
  ⟨_, readsAs_line (Prod.ext rfl reads)⟩

theorem ReadsAsCode.exists_readsAs {lines : List Placed} (reads : ReadsAsCode .between lines) :
    ∃ told, ReadsAs (bodyText lines) told ∧ ReadsAs (bodyText (codeLines lines)) told := by
  have readsAs {body : List Placed} (ends : (Place.between.read (plain (bodyText body))).2 =
      .between) : ReadsAs (bodyText body) (Place.between.read (plain (bodyText body))).1 := by
    intro code
    simp only [tokens, plain_bodyText_append, Place.read_append, ends, List.append_assoc]
  refine ⟨_, readsAs reads.2, ?_⟩
  rw [reads.1]
  exact readsAs (reads.1 ▸ reads.2)

theorem isClosedText_flatMap {α : Type} {write : α → List Char} {values : List α}
    (each : ∀ value ∈ values, IsClosedText (write value)) :
    IsClosedText (values.flatMap write) := by
  induction values with
  | nil => exact ⟨[], fun _ => rfl⟩
  | cons value rest induction =>
      have later := induction fun other member => each other (List.mem_cons_of_mem _ member)
      rw [List.flatMap_cons]
      exact (each value List.mem_cons_self).append later

theorem isBare_function {unit : UnitName} {char : Char}
    (member : char ∈ "void".toList ++ ' ' :: (unit.entrySymbol.toList ++
      '(' :: ("RuntimeContext & ctx".toList ++ [')']))) : isBare char = true := by
  have result : "void".toList.all isBare = true := by decide
  have parameters : "RuntimeContext & ctx".toList.all isBare = true := by decide
  simp only [List.mem_append, List.mem_cons, List.not_mem_nil, or_false] at member
  rcases member with member | rfl | member | rfl | member | rfl
  · exact List.all_eq_true.mp result char member
  · decide
  · exact isBare_of_isWordChar (isWordChar_of_mem_entrySymbol member)
  · decide
  · exact List.all_eq_true.mp parameters char member
  · decide

namespace Source

def title (code : Source) : List Char :=
  '/' :: '/' :: (" Events of ".toList ++ code.unit.display.toList ++ " in project '".toList ++
    code.projectName.toList ++ "'.".toList)

def opening (code : Source) : List Char :=
  "#include \"GDCpp/Runtime/RuntimeContext.h\"\n".toList ++ ['\n'] ++
    (code.declarations.flatMap fun prototype => prototype.text.toList ++ [';'] ++ ['\n']) ++
    (if code.declarations.isEmpty then [] else ['\n']) ++ (code.defined.text.toList ++ ['\n']) ++
    (['\x7b'] ++ ['\n'])

theorem toList_text (code : Source) : code.text.toList =
    (code.title ++ ['\n']) ++ (code.opening ++ (bodyText code.body ++ ['\x7d', '\n'])) := by
  have heading : code.heading.toList =
      code.title ++ ['\n'] ++ "#include \"GDCpp/Runtime/RuntimeContext.h\"\n\n".toList := by
    change ("// Events of " ++ code.unit.display ++ " in project '" ++ code.projectName ++ "'.\n" ++
      "#include \"GDCpp/Runtime/RuntimeContext.h\"\n\n").toList = _
    unfold title
    simp
  have separator : (if code.declarations.isEmpty then "" else "\n").toList =
      if code.declarations.isEmpty then [] else ['\n'] := by
    split <;> rfl
  have declarations : (String.join (code.declarations.map (·.text ++ ";\n"))).toList =
      code.declarations.flatMap fun prototype => prototype.text.toList ++ [';'] ++ ['\n'] := by
    simp [String.toList_join, List.flatMap_map]
  rw [text_eq]
  unfold definition opening bodyText
  simp only [String.toList_append, heading, separator, declarations, String.toList_ofList]
  simp

theorem isClosedText_opening (code : Source) : IsClosedText code.opening := by
  have including : IsClosedText
      ("#include \"GDCpp/Runtime/RuntimeContext.h\"\n".toList ++ ['\n']) :=
    isClosedText_line (by decide +kernel)
  have declares : IsClosedText (code.declarations.flatMap fun prototype =>
      prototype.text.toList ++ [';'] ++ ['\n']) := by
    refine isClosedText_flatMap fun prototype member => isClosedText_line ?_
    rcases List.mem_map.mp member with ⟨sheet, _, rfl⟩
    apply Place.read_bareLine
    intro char member
    rw [Signature.toList_text] at member
    rcases List.mem_append.mp member with member | member
    · exact isBare_function member
    · cases List.mem_singleton.mp member
      decide
  have separates : IsClosedText (if code.declarations.isEmpty then [] else ['\n']) := by
    split
    · exact ⟨[], fun _ => rfl⟩
    · have newline : IsClosedText ([] ++ ['\n']) := isClosedText_line (by decide)
      exact newline
  have defines : IsClosedText (code.defined.text.toList ++ ['\n']) := by
    have linkage : Place.between.read "extern \"C\" ".toList =
        ([.word "extern".toList, .literal "\"C\"".toList], .between) := by decide +kernel
    apply isClosedText_line
    rw [Signature.toList_text]
    have isLine : IsLine "extern \"C\" ".toList := by decide
    have ended : "extern \"C\" ".toList.getLast? ≠ some '\\' := by decide
    refine Place.read_bareEnd isLine ended ?_ fun char => isBare_function
    exact (congrArg Prod.snd linkage).symm ▸ trivial
  have opens : IsClosedText (['\x7b'] ++ ['\n']) := isClosedText_line (by decide)
  exact (((including.append declares).append separates).append defines).append opens

theorem calls_withoutRemarks (code : Source) : code.withoutRemarks.calls = code.calls := by
  refine congrArg NameSet.ofList ?_
  change (codeLines code.body).filterMap _ = _
  rw [codeLines, List.filterMap_filter]
  congr 1
  funext placed
  cases placed.statement <;> rfl

theorem opening_withoutRemarks (code : Source) : code.withoutRemarks.opening = code.opening := by
  have same : code.withoutRemarks.declarations = code.declarations := by
    rw [declarations, declarations, calls_withoutRemarks]
  unfold opening
  rw [same]
  rfl

theorem readsAs_title (code : Source) (name : IsLine code.projectName.toList)
    (unit : IsLine code.unit.name.toList) : ReadsAs (code.title ++ ['\n']) [] := by
  apply readsAs_line
  have isLine : IsLine (" Events of ".toList ++ code.unit.display.toList ++
      " in project '".toList ++ code.projectName.toList ++ "'.".toList) := by
    refine (((IsLine.append ?_ (isLine_display unit)).append ?_).append name).append ?_
    all_goals decide
  refine Place.read_comment isLine ?_ 0
  rw [List.getLast?_append, show "'.".toList.getLast? = some '.' by decide]
  simp

theorem tokens_withoutRemarks {code : Source} (name : IsLine code.projectName.toList)
    (unit : IsLine code.unit.name.toList) (reads : ReadsAsCode .between code.body) :
    tokens code.withoutRemarks.text.toList = tokens code.text.toList := by
  rcases code.isClosedText_opening with ⟨opened, opening⟩
  rcases reads.exists_readsAs with ⟨told, whole, short⟩
  have titled := readsAs_title code name unit
  have untold : IsLine "".toList := by decide
  have untitled : ReadsAs (code.withoutRemarks.title ++ ['\n']) [] :=
    readsAs_title code.withoutRemarks untold unit
  have same : code.withoutRemarks.body = codeLines code.body := rfl
  rw [toList_text, toList_text, titled, untitled, opening_withoutRemarks, opening, opening, same,
    whole, short]

end Source

/-- The tokens that are generated for a unit. -/
def generatedTokens (project : Project) (compiled : NameSet) (unit : UnitName) :
    Except GenerationError (List Lexeme) :=
  (generate project unit compiled).map fun text => tokens text.toList

theorem generatedTokens_withoutRemarks (stays : RemarksStay project) (compiled : NameSet)
    (unit : UnitName) :
    generatedTokens project.withoutRemarks compiled unit =
      generatedTokens project compiled unit := by
  rw [generatedTokens, generatedTokens, generate, generate, source_withoutRemarks]
  cases written : source project compiled unit with
  | error error => rfl
  | ok code =>
      rcases exists_of_bind_eq_ok written with ⟨lines, isBody, same⟩
      cases same
      exact congrArg Except.ok (Source.tokens_withoutRemarks stays.name
        (isLine_of_body stays isBody) (readsAsCode_body stays isBody))

/-- Where what projects remark stays in place, remarks do not change the code. -/
theorem generatedTokens_of_alike {project other : Project} (alike : project.Alike other)
    (stays : RemarksStay project) (staysToo : RemarksStay other) (compiled : NameSet)
    (unit : UnitName) :
    generatedTokens project compiled unit = generatedTokens other compiled unit := by
  rw [← generatedTokens_withoutRemarks stays, ← generatedTokens_withoutRemarks staysToo, alike]

/-! ## Games with remarks -/

theorem isWhole_of_bare {code : List Char}
    (bare : (Text.lines code).all (·.all isBare) = true) : IsWhole code := by
  intro depth
  unfold nativeLines
  generalize Text.lines code = lines at bare
  induction lines with
  | nil => rfl
  | cons line rest induction =>
      rw [List.all_cons, Bool.and_eq_true] at bare
      have closed : Placed.IsClosed ⟨depth, .native line⟩ :=
        isClosed_of_bare (List.all_eq_true.mp bare.1)
      rw [Placed.IsClosed] at closed
      rw [List.map_cons, read_cons, closed]
      exact induction bare.2

theorem stays_of_sheets {project : Project} (name : IsLine project.name.toList)
    (sheets : ∀ sheet ∈ project.sheets, IsLine sheet.1.name.toList ∧
      ∀ event : Event, event.Stands sheet.2 → StaysInPlace project event) :
    RemarksStay project where
  name := name
  unit := fun found => (sheets _ (Project.mem_sheets.mpr (Project.hasEvents_of_events? found))).1
  event := fun stands =>
    (sheets _ (Project.mem_sheets.mpr (Project.hasEvents_eventsOf stands))).2 _ stands

def remarkingGame (name comment target : String) : Project :=
  { shopGame with
    name := name
    scenes := [⟨"Level", [], [.link target, .comment comment, .code "think();" [] []], false, none⟩]
    externalEvents := [] }

def remarkingSource (name comment target : String) : Source :=
  ⟨.scene "Level", name, [⟨1, .unknownLink target⟩, ⟨1, .comment comment.toList⟩,
    ⟨1, .native "think();".toList⟩]⟩

theorem stays_remarkingGame {name comment target : String} (isName : IsLine name.toList)
    (isComment : ∀ line ∈ Text.lines comment.toList, '\r' ∉ line ∧ line.getLast? ≠ some '\\')
    (isTarget : IsLine target.toList) : RemarksStay (remarkingGame name comment target) := by
  have sheets : (remarkingGame name comment target).sheets =
      [(.scene "Level", [.link target, .comment comment, .code "think();" [] []])] := rfl
  have level : IsLine (UnitName.scene "Level").name.toList := by decide
  have think : IsWhole "think();".toList := isWhole_of_bare (by decide)
  apply stays_of_sheets isName
  simp only [sheets, List.forall_mem_singleton, Event.stands_cons, Event.not_stands_nil,
    Event.subEvents, false_or, or_false, forall_eq_or_imp, forall_eq]
  exact ⟨level, fun _ => isTarget, isComment, think⟩

def quietGame : Project := remarkingGame "Shop" "sells" "Mall"

theorem source_quietGame : source quietGame .empty (.scene "Level") =
    .ok (remarkingSource "Shop" "sells" "Mall") := by
  cbv

theorem generatedTokens_of_source {code : Source} {compiled : NameSet} {unit : UnitName}
    (written : source project compiled unit = .ok code) :
    generatedTokens project compiled unit = .ok (tokens code.text.toList) := by
  rw [generatedTokens, generate, written]
  rfl

/-- Other remarks, same code. -/
theorem generatedTokens_of_alike_quietGame :
    quietGame.Alike (remarkingGame "Bazaar" "buys" "Market") ∧
      RemarksStay quietGame ∧ RemarksStay (remarkingGame "Bazaar" "buys" "Market") ∧
      generatedTokens quietGame .empty (.scene "Level") =
        .ok (tokens (remarkingSource "Shop" "sells" "Mall").text.toList) ∧
      generatedTokens quietGame .empty (.scene "Level") =
        generatedTokens (remarkingGame "Bazaar" "buys" "Market") .empty (.scene "Level") := by
  have alike : quietGame.Alike (remarkingGame "Bazaar" "buys" "Market") := by cbv
  have stays : RemarksStay quietGame :=
    stays_remarkingGame (by decide) (by decide) (by decide)
  have staysToo : RemarksStay (remarkingGame "Bazaar" "buys" "Market") :=
    stays_remarkingGame (by decide) (by decide) (by decide)
  exact ⟨alike, stays, staysToo, generatedTokens_of_source source_quietGame,
    generatedTokens_of_alike alike stays staysToo .empty (.scene "Level")⟩

theorem generatedTokens_ne_of_source {other : Project} {code copy : Source} {compiled : NameSet}
    {unit : UnitName} (written : source project compiled unit = .ok code)
    (copied : source other compiled unit = .ok copy)
    (differ : tokens code.text.toList ≠ tokens copy.text.toList) :
    generatedTokens project compiled unit ≠ generatedTokens other compiled unit := by
  rw [generatedTokens_of_source written, generatedTokens_of_source copied]
  exact fun same => differ (Except.ok.inj same)

/-- A comment that ends in a backslash takes the statement behind it away; the target of a link and
the name of a project start a line of code. -/
theorem not_always_same_tokens :
    (quietGame.Alike (remarkingGame "Shop" "sells\\" "Mall") ∧
      generatedTokens quietGame .empty (.scene "Level") ≠
        generatedTokens (remarkingGame "Shop" "sells\\" "Mall") .empty (.scene "Level")) ∧
    (quietGame.Alike (remarkingGame "Shop" "sells" "Mall\nboom();") ∧
      generatedTokens quietGame .empty (.scene "Level") ≠
        generatedTokens (remarkingGame "Shop" "sells" "Mall\nboom();") .empty (.scene "Level")) ∧
    (quietGame.Alike (remarkingGame "Shop\nboom();" "sells" "Mall") ∧
      generatedTokens quietGame .empty (.scene "Level") ≠
        generatedTokens (remarkingGame "Shop\nboom();" "sells" "Mall") .empty
          (.scene "Level")) := by
  have joined : source (remarkingGame "Shop" "sells\\" "Mall") .empty (.scene "Level") =
      .ok (remarkingSource "Shop" "sells\\" "Mall") := by cbv
  have linked : source (remarkingGame "Shop" "sells" "Mall\nboom();") .empty (.scene "Level") =
      .ok (remarkingSource "Shop" "sells" "Mall\nboom();") := by cbv
  have named : source (remarkingGame "Shop\nboom();" "sells" "Mall") .empty (.scene "Level") =
      .ok (remarkingSource "Shop\nboom();" "sells" "Mall") := by cbv
  refine ⟨⟨by cbv, generatedTokens_ne_of_source source_quietGame joined ?_⟩,
    ⟨by cbv, generatedTokens_ne_of_source source_quietGame linked ?_⟩,
    ⟨by cbv, generatedTokens_ne_of_source source_quietGame named ?_⟩⟩
  all_goals
    rw [Source.toList_text, Source.toList_text]
    decide +kernel

end GameExport.Generation
