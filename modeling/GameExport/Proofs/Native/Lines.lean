import GameExport.Proofs.Generation.Linkage
import GameExport.Proofs.Native.Calls

/-! # Reading the lines of a body

A statement is one line of a body. Main statements: a reader that is between tokens before the line
of a statement is so behind it, unless the statement is native code; and a line that only remarks
something is read as nothing, as long as what it remarks stays on the line.
-/

namespace GameExport.Generation

open Native

/-! ## Lines of a body -/

def placeBehind (place : Place) (line : Placed) : Place := (place.read (plain line.text)).2

def bodyText (body : List Placed) : List Char := body.flatMap Placed.text

theorem plain_line_append (line : Placed) (code : List Char) :
    plain (line.text ++ code) = plain line.text ++ plain code := by
  have split := plain_append (List.replicate (4 * line.depth) ' ' ++ line.statement.text) code
  simpa [Placed.text] using split

theorem plain_bodyText_append (body : List Placed) (code : List Char) :
    plain (bodyText body ++ code) = plain (bodyText body) ++ plain code := by
  induction body with
  | nil => rfl
  | cons line rest induction =>
      have text : bodyText (line :: rest) = line.text ++ bodyText rest := List.flatMap_cons ..
      rw [text, List.append_assoc, plain_line_append, plain_line_append, induction,
        List.append_assoc]

def Placed.IsClosed (line : Placed) : Prop := placeBehind .between line = .between

def Placed.IsSilent (line : Placed) : Prop := Place.between.read (plain line.text) = ([], .between)

theorem Placed.IsSilent.isClosed {line : Placed} (silent : line.IsSilent) : line.IsClosed :=
  congrArg Prod.snd silent

/-- A comment to the end of the line, whatever stands in it. -/
theorem isSilent_of_text {line : Placed} {text : List Char}
    (isComment : line.statement.text = '/' :: '/' :: text) (isLine : IsLine text)
    (ended : text.getLast? ≠ some '\\') : line.IsSilent := by
  have silent := Place.read_comment isLine ended (4 * line.depth)
  rwa [← isComment] at silent

theorem isClosed_of_bare {line : Placed} (bare : ∀ char ∈ line.statement.text, isBare char = true) :
    line.IsClosed := by
  apply Place.read_bareLine
  intro char member
  rcases List.mem_append.mp member with blank | member
  · rw [(List.mem_replicate.mp blank).2]
    decide
  · exact bare char member

theorem isBare_of_isWordChar {char : Char} (isWordChar : IsWordChar char) : isBare char = true := by
  by_contra notBare
  rw [isBare, Bool.not_eq_true, Bool.not_eq_false'] at notBare
  simp only [isQuote, Bool.or_eq_true, decide_eq_true_eq, or_assoc] at notBare
  rcases notBare with rfl | rfl | rfl | rfl | rfl | rfl
  all_goals revert isWordChar; unfold IsWordChar; decide

theorem isClosed_openBlock (depth : Nat) : Placed.IsClosed ⟨depth, .openBlock⟩ :=
  isClosed_of_bare (by simp [Statement.text, isBare, isQuote])

theorem isClosed_closeBlock (depth : Nat) : Placed.IsClosed ⟨depth, .closeBlock⟩ :=
  isClosed_of_bare (by simp [Statement.text, isBare, isQuote])

theorem isClosed_perform (depth : Nat) (instruction : Instruction) :
    Placed.IsClosed ⟨depth, .perform instruction⟩ :=
  congrArg Prod.snd (read_callLine depth instruction)

theorem isClosed_enter (depth : Nat) (sheet : String) :
    Placed.IsClosed ⟨depth, .enter sheet⟩ := by
  have ending : "(ctx);".toList.all isBare = true := by decide
  apply isClosed_of_bare
  intro char member
  rcases List.mem_append.mp member with member | member
  · exact isBare_of_isWordChar (isWordChar_of_mem_entrySymbol member)
  · exact List.all_eq_true.mp ending char member

theorem toList_display (unit : UnitName) : ∃ kind, IsLine kind ∧
    unit.display.toList = kind ++ unit.name.toList ++ ['\x27'] := by
  cases unit with
  | scene name => exact ⟨"scene '".toList, by decide, by
      change ("scene '" ++ name ++ "'").toList = _
      rw [String.toList_append, String.toList_append]
      rfl⟩
  | externalEvents name => exact ⟨"external events '".toList, by decide, by
      change ("external events '" ++ name ++ "'").toList = _
      rw [String.toList_append, String.toList_append]
      rfl⟩
  | sourceFile name => exact ⟨"source file '".toList, by decide, by
      change ("source file '" ++ name ++ "'").toList = _
      rw [String.toList_append, String.toList_append]
      rfl⟩

theorem isLine_display {unit : UnitName} (isLine : IsLine unit.name.toList) :
    IsLine unit.display.toList := by
  rcases toList_display unit with ⟨kind, isLineToo, same⟩
  rw [same]
  exact (isLineToo.append isLine).append (by decide)

theorem getLast?_display (unit : UnitName) : unit.display.toList.getLast? = some '\x27' := by
  rcases toList_display unit with ⟨kind, _, same⟩
  rw [same, List.getLast?_concat]

theorem isSilent_of_parts {line : Placed} {front back : List Char} {last : Char}
    (isComment : line.statement.text = '/' :: '/' :: (front ++ back)) (isLine : IsLine front)
    (isLineToo : IsLine back) (ended : back.getLast? = some last) (other : last ≠ '\\') :
    line.IsSilent := by
  refine isSilent_of_text isComment (isLine.append isLineToo) ?_
  rw [List.getLast?_append, ended]
  simpa using other

theorem isSilent_begin (depth : Nat) {unit : UnitName} (isLine : IsLine unit.name.toList) :
    Placed.IsSilent ⟨depth, .begin unit⟩ := by
  have text : (Statement.begin unit).text =
      '/' :: '/' :: (" Begin ".toList ++ unit.display.toList) := by
    change ("// Begin " ++ unit.display).toList = _
    rw [String.toList_append]
    rfl
  exact isSilent_of_parts text (by decide) (isLine_display isLine) (getLast?_display unit)
    (by decide)

theorem isSilent_finish (depth : Nat) {unit : UnitName} (isLine : IsLine unit.name.toList) :
    Placed.IsSilent ⟨depth, .finish unit⟩ := by
  have text : (Statement.finish unit).text =
      '/' :: '/' :: (" End ".toList ++ unit.display.toList) := by
    change ("// End " ++ unit.display).toList = _
    rw [String.toList_append]
    rfl
  exact isSilent_of_parts text (by decide) (isLine_display isLine) (getLast?_display unit)
    (by decide)

theorem isSilent_unknownLink (depth : Nat) {target : String} (isLine : IsLine target.toList) :
    Placed.IsSilent ⟨depth, .unknownLink target⟩ := by
  have text : (Statement.unknownLink target).text =
      '/' :: '/' ::
        (" Link to unknown events '".toList ++ target.toList ++ "' ignored.".toList) := by
    change ("// Link to unknown events '" ++ target ++ "' ignored.").toList = _
    rw [String.toList_append, String.toList_append]
    rfl
  have front : IsLine (" Link to unknown events '".toList ++ target.toList) :=
    IsLine.append (by decide) isLine
  have ended : "' ignored.".toList.getLast? = some '.' := by decide
  exact isSilent_of_parts text front (by decide) ended (by decide)

theorem isSilent_comment (depth : Nat) {line : List Char} (isLine : IsLine line)
    (ended : line.getLast? ≠ some '\\') : Placed.IsSilent ⟨depth, .comment line⟩ := by
  have text : (Statement.comment line).text = '/' :: '/' :: (' ' :: line) := rfl
  have blank : IsLine [' '] := by decide
  refine isSilent_of_text text (blank.append isLine) ?_
  cases line with
  | nil => decide
  | cons char rest => simpa using ended

end GameExport.Generation
