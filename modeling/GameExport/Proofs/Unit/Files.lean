import GameExport.Proofs.Export.CompiledOnce
import GameExport.Proofs.Resource.Exposing
import GameExport.Settings.Basic

/-! # Files of units

The generated source and the object of a unit are entries of one directory, named by the stem and an
ending. Main statement: two units share a stem, a function, a source or an object only if they are
the same unit, and no generated source is the object of a unit or the file with the compiler's
output.
-/

namespace GameExport

/-! ## Paths of entries -/

namespace Path

theorem pieces_append {text : String} {front : List Char} {name : String} (isName : IsName name)
    (same : text.toList = front ++ '/' :: name.toList) :
    pieces text = (front.splitOn '/').map String.ofList ++ [name] := by
  rw [pieces, same, List.splitOn_append_cons_self, List.splitOn_eq_singleton isName.noSlash]
  simp

theorem ofPiece?_name {name : String} (isName : IsName name) :
    Component.ofPiece? name = some (.name name) := by
  rw [Component.ofPiece?, if_neg (fun dots => dots.elim isName.notEmpty isName.notHere),
    if_neg isName.notParent]

theorem components_child (directory : Path) {name : String} (isName : IsName name) :
    (directory.child name).components = directory.components ++ [.name name] := by
  by_cases empty : directory.text = ""
  · have nothing : directory.components = [] := by
      rw [components, pieces, isAbsolute, empty]
      rfl
    rw [child, join, if_neg isName.not_isAbsolute, if_pos empty, nothing, isName.components]
    rfl
  · rcases FileTree.toList_child empty isName with ⟨front, text, same⟩
    have childPieces := pieces_append isName text
    -- A separator at the end of the directory only adds an empty piece, which counts for nothing.
    have directoryPieces : ∃ more, more.filterMap Component.ofPiece? = [] ∧
        pieces directory.text = (front.splitOn '/').map String.ofList ++ more := by
      rcases same with same | same
      · exact ⟨[], rfl, by rw [pieces, same, List.append_nil]⟩
      · refine ⟨[""], by decide, ?_⟩
        rw [pieces, same, List.splitOn_append_cons_self]
        simp
    rcases directoryPieces with ⟨more, nothing, directoryPieces⟩
    have notNil : (front.splitOn '/').map String.ofList ≠ [] := by
      simp
    rw [components, components, FileTree.isAbsolute_child empty isName, childPieces,
      directoryPieces, List.head?_append_of_ne_nil _ notNil, List.head?_append_of_ne_nil _ notNil]
    simp only [List.filterMap_append, nothing, List.append_nil, List.append_assoc]
    rw [List.filterMap_cons_some (ofPiece?_name isName)]
    rfl

theorem same_child_iff (directory : Path) {left right : String} (leftIsName : IsName left)
    (rightIsName : IsName right) :
    (directory.child left).same (directory.child right) = true ↔ left = right := by
  rw [same_iff, components_child directory leftIsName, components_child directory rightIsName,
    List.append_cancel_left_eq, List.cons.injEq, Component.name.injEq]
  simp

end Path

/-! ## Names with different endings -/

theorem ne_of_getLast?_ne {left right : String}
    (different : left.toList.getLast? ≠ right.toList.getLast?) : left ≠ right :=
  fun same => different (same ▸ rfl)

theorem getLast?_append_ending (front : String) {ending : String} {last : Char}
    (ends : ending.toList.getLast? = some last) :
    (front ++ ending).toList.getLast? = some last := by
  rw [String.toList_append, List.getLast?_append, ends, Option.some_or]

theorem getLast?_sourceFile (stem : String) :
    (stem ++ UnitFiles.sourceEnding).toList.getLast? = some 'p' :=
  getLast?_append_ending stem rfl

theorem getLast?_objectFile (stem : String) :
    (stem ++ UnitFiles.objectEnding).toList.getLast? = some 'o' :=
  getLast?_append_ending stem rfl

namespace UnitName

theorem isName_source (unit : UnitName) : IsName (unit.stem ++ UnitFiles.sourceEnding) :=
  unit.isName_stem_append (by decide)

theorem isName_object (unit : UnitName) : IsName (unit.stem ++ UnitFiles.objectEnding) :=
  unit.isName_stem_append (by decide)

theorem stem_append_inj {left right : UnitName} {ending : String} :
    left.stem ++ ending = right.stem ++ ending ↔ left = right := by
  rw [String.append_left_inj, stem_injective.eq_iff]

/-! ## Units are told apart by their files -/

/-- What is named after two units in a directory is the same only if the units are. -/
structure ToldApart (directory : Path) (left right : UnitName) : Prop where
  stems : left.stem = right.stem ↔ left = right
  symbols : left.entrySymbol = right.entrySymbol ↔ left = right
  sources : (UnitFiles.generated left directory).source.same
    (UnitFiles.generated right directory).source = true ↔ left = right
  objects : (UnitFiles.objectPath left directory).same
    (UnitFiles.objectPath right directory) = true ↔ left = right
  sourceIsNoObject : (UnitFiles.generated left directory).source.same
    (UnitFiles.objectPath right directory) = false

theorem toldApart (directory : Path) (left right : UnitName) : ToldApart directory left right where
  stems := stem_injective.eq_iff
  symbols := entrySymbol_injective.eq_iff
  sources := (directory.same_child_iff left.isName_source right.isName_source).trans
    stem_append_inj
  objects := (directory.same_child_iff left.isName_object right.isName_object).trans
    stem_append_inj
  sourceIsNoObject := by
    have different :
        left.stem ++ UnitFiles.sourceEnding ≠ right.stem ++ UnitFiles.objectEnding := by
      apply ne_of_getLast?_ne
      rw [getLast?_sourceFile, getLast?_objectFile]
      decide
    rw [Bool.eq_false_iff, ne_eq, UnitFiles.generated, UnitFiles.objectPath]
    exact (directory.same_child_iff left.isName_source right.isName_object).not.mpr different

theorem source_ne_logFile (settings : Settings) (unit : UnitName) :
    (UnitFiles.generated unit settings.generatedDirectory).source.same settings.logFile =
      false := by
  have different : unit.stem ++ UnitFiles.sourceEnding ≠ Settings.logName := by
    apply ne_of_getLast?_ne
    rw [getLast?_sourceFile]
    decide
  rw [Bool.eq_false_iff, ne_eq, UnitFiles.generated, Settings.logFile]
  have told := settings.generatedDirectory.same_child_iff unit.isName_source
    (show IsName Settings.logName by decide)
  exact told.not.mpr different

/-- Whatever units are called, nothing that is named after them collides: stems, functions,
generated sources and objects tell them apart, and a generated source is neither an object nor the
file with the compiler's output. A stem is made of letters, digits and underscores. -/
theorem names_neverCollide (settings : Settings) (left right : UnitName) :
    (∀ directory, ToldApart directory left right) ∧
      (UnitFiles.generated left settings.generatedDirectory).source.same settings.logFile = false ∧
      ∀ char ∈ left.stem.toList, char.isAlphanum = true ∨ char = '_' :=
  ⟨fun directory => toldApart directory left right, source_ne_logFile settings left,
    fun _ => isWordChar_of_mem_stem⟩

end UnitName

end GameExport
