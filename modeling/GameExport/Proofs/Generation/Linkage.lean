import GameExport.Proofs.Generation.Declaring
import GameExport.Proofs.Generation.Links

/-! # What a call refers to

An object file refers to a function by a name that depends on how the function is declared, and
offers it by a name that depends on how it is defined. Main statement: the function that a source
declares for a sheet agrees with the one that the source of the sheet defines in everything but the
linkage, so the name that the caller refers to is one that no object defines.
-/

namespace GameExport.Generation

/-- How a function is named in an object file. -/
inductive ObjectName
  | bare (identifier : String)
  | typed (identifier parameters : String)
  deriving DecidableEq, Repr

/-- What the first line of a function says, read from its text. -/
structure Signature where
  linkage : Linkage
  result : String
  identifier : String
  parameters : String
  deriving DecidableEq, Repr

namespace Signature

/-- The name of the function in the object files that define it or refer to it. -/
def objectName (signature : Signature) : ObjectName :=
  match signature.linkage with
  | .plain => .typed signature.identifier signature.parameters
  | .bare => .bare signature.identifier

def cut? (mark : Char) (text : List Char) : Option (List Char × List Char) :=
  match text.dropWhile (· != mark) with
  | _ :: back => some (text.takeWhile (· != mark), back)
  | [] => none

def readFunction? (linkage : Linkage) (text : List Char) : Option Signature := do
  let (result, text) ← cut? ' ' text
  let (identifier, text) ← cut? '(' text
  let (parameters, text) ← cut? ')' text
  if text = [] then
    some ⟨linkage, .ofList result, .ofList identifier, .ofList parameters⟩
  else none

def read? (line : String) : Option Signature :=
  match "extern \"C\" ".toList.isPrefixOf? line.toList with
  | some function => readFunction? .bare function
  | none => readFunction? .plain line.toList

theorem cut?_append {mark : Char} {front : List Char} (unmarked : mark ∉ front)
    (back : List Char) : cut? mark (front ++ mark :: back) = some (front, back) := by
  have others : ∀ char ∈ front, (char != mark) = true := by
    intro char member
    rw [bne_iff_ne]
    rintro rfl
    exact unmarked member
  rw [cut?, List.takeWhile_append_of_pos others, List.dropWhile_append_of_pos others]
  simp

theorem readFunction?_eq {result identifier parameters : String} (linkage : Linkage)
    (noBlank : ' ' ∉ result.toList) (noOpening : '(' ∉ identifier.toList)
    (noClosing : ')' ∉ parameters.toList) :
    readFunction? linkage
        (result.toList ++ ' ' :: (identifier.toList ++ '(' :: (parameters.toList ++ [')']))) =
      some ⟨linkage, result, identifier, parameters⟩ := by
  simp only [readFunction?, Option.bind_eq_bind, cut?_append noBlank, cut?_append noOpening,
    cut?_append noClosing, Option.bind_some, if_pos, String.ofList_toList]

theorem toList_text (prototype : Prototype) : prototype.text.toList =
    (match prototype.linkage with
      | .plain => []
      | .bare => "extern \"C\" ".toList) ++
      ("void".toList ++ ' ' :: (prototype.symbol.toList ++
        '(' :: ("RuntimeContext & ctx".toList ++ [')']))) := by
  rcases prototype with ⟨linkage, symbol⟩
  cases linkage <;> simp [Prototype.text, toString]

theorem read?_text {prototype : Prototype} (noOpening : '(' ∉ prototype.symbol.toList) :
    read? prototype.text =
      some ⟨prototype.linkage, "void", prototype.symbol, "RuntimeContext & ctx"⟩ := by
  have noBlank : ' ' ∉ "void".toList := by decide
  have noClosing : ')' ∉ "RuntimeContext & ctx".toList := by decide
  have function := readFunction?_eq prototype.linkage noBlank noOpening noClosing
  rw [read?, toList_text]
  rcases prototype with ⟨linkage, symbol⟩
  cases linkage with
  | plain =>
      have noExtern (rest : List Char) :
          "extern \"C\" ".toList.isPrefixOf? ([] ++ ("void".toList ++ rest)) = none := by
        simp [List.isPrefixOf?]
      rw [noExtern]
      exact function
  | bare =>
      rw [List.isPrefixOf?_eq_some_iff_append_eq.mpr rfl]
      exact function

end Signature

/-! ## Entry symbols are identifiers -/

theorem isWordChar_of_mem_entrySymbol {char : Char} {unit : UnitName}
    (member : char ∈ unit.entrySymbol.toList) : IsWordChar char := by
  have letters : "Run".toList.all Char.isAlphanum = true := by decide
  rw [UnitName.entrySymbol, String.toList_append] at member
  rcases List.mem_append.mp member with member | member
  · exact UnitName.isWordChar_of_mem_stem member
  · exact .inl (List.all_eq_true.mp letters char member)

theorem opening_notMem_entrySymbol (unit : UnitName) : '(' ∉ unit.entrySymbol.toList := by
  intro member
  rcases isWordChar_of_mem_entrySymbol member with letter | underscore
  · cases letter
  · cases underscore

namespace Source

/-! ## What a caller declares and what a sheet defines -/

def declaredSignatures (code : Source) : List Signature :=
  code.declarations.filterMap fun prototype => Signature.read? prototype.text

def definedSignature? (code : Source) : Option Signature := Signature.read? code.defined.text

/-- The function that a source declares for a sheet is the one that another source defines. -/
def Agrees (caller callee : Source) (sheet : String) : Prop :=
  ∃ signature ∈ caller.declaredSignatures,
    signature.identifier = (UnitName.externalEvents sheet).entrySymbol ∧
      callee.definedSignature? = some signature

def declaredSignature (sheet : String) : Signature :=
  ⟨.plain, "void", (UnitName.externalEvents sheet).entrySymbol, "RuntimeContext & ctx"⟩

def definedSignature (unit : UnitName) : Signature :=
  ⟨.bare, "void", unit.entrySymbol, "RuntimeContext & ctx"⟩

variable {code caller callee : Source} {sheet : String}

theorem definedSignature?_eq (code : Source) :
    code.definedSignature? = some (definedSignature code.unit) :=
  Signature.read?_text (opening_notMem_entrySymbol code.unit)

theorem read?_declared (sheet : String) :
    Signature.read? (declared sheet).text = some (declaredSignature sheet) :=
  Signature.read?_text (opening_notMem_entrySymbol (.externalEvents sheet))

theorem declaredSignatures_eq (code : Source) :
    code.declaredSignatures = code.calls.toList.map declaredSignature := by
  rw [declaredSignatures, declarations, List.filterMap_map]
  simp only [Function.comp_def, read?_declared]
  exact congrFun List.filterMap_eq_map' _

theorem mem_declaredSignatures {signature : Signature} :
    signature ∈ code.declaredSignatures ↔
      ∃ sheet, code.Calls sheet ∧ declaredSignature sheet = signature := by
  rw [declaredSignatures_eq, List.mem_map]
  simp only [mem_calls]

theorem filter_declaredSignatures (called : code.Calls sheet) :
    code.declaredSignatures.filter
        (·.identifier == (UnitName.externalEvents sheet).entrySymbol) =
      [declaredSignature sheet] := by
  have distinct : code.calls.toList.Nodup := .of_map _ (.of_map _ code.nodup_symbols)
  have sameSymbol : (fun other => (declaredSignature other).identifier ==
      (UnitName.externalEvents sheet).entrySymbol) = (· == sheet) := by
    funext other
    rw [Bool.eq_iff_iff, beq_iff_eq, beq_iff_eq, declaredSignature,
      UnitName.entrySymbol_injective.eq_iff, UnitName.externalEvents.injEq]
  rw [declaredSignatures_eq, List.filter_map, Function.comp_def, sameSymbol, List.filter_beq,
    List.count_eq_one_of_mem distinct (mem_calls.mpr called)]
  rfl

theorem compiled_of_calls {project : Project} {compiled : NameSet} {unit : UnitName}
    (written : source project compiled unit = .ok code) (called : code.Calls sheet) :
    sheet ∈ compiled ∧ .externalEvents sheet ≠ unit := by
  rcases of_source_eq_ok written with ⟨rfl, lines⟩
  rcases (mem_body lines).mp called with ⟨home, _, item, standing, own⟩
  cases item with
  | statement statement =>
      rw [ownStatements, List.mem_singleton] at own
      have ofEvent := ofEvents_itemsOf _ _ standing
      rw [← own] at ofEvent
      cases ofEvent
  | link target =>
      rcases mem_ownStatements_link.mp own with ⟨_, same⟩ | ⟨unit, leads, ⟨calls, same⟩ | ⟨_, same⟩⟩
      · cases same
      · cases same
        exact (of_isCall leads calls).2
      · rcases same with same | same <;> cases same

/-- A source that calls a sheet declares one function for it. Its result, its identifier and what it
takes are those of the function that the source of the sheet defines, but it has the plain linkage
and the definition has the bare one. So no source defines a function by the name that the caller
refers to, although the sheet alone has a function of that identifier. -/
theorem call_refers_to_no_definition {project : Project} {compiled : NameSet} {unit : UnitName}
    (written : source project compiled unit = .ok caller) (called : caller.Calls sheet)
    (calleeWritten : source project compiled (.externalEvents sheet) = .ok callee) :
    (sheet ∈ compiled ∧ .externalEvents sheet ≠ unit) ∧ ∃ declared defined : Signature,
      caller.declaredSignatures.filter (·.identifier == defined.identifier) = [declared] ∧
        callee.definedSignature? = some defined ∧
        defined.linkage = .bare ∧ declared = { defined with linkage := .plain } ∧
        ∀ (other : Source) (signature : Signature), other.definedSignature? = some signature →
          signature.objectName ≠ declared.objectName ∧
            (signature.identifier = declared.identifier ↔ other.unit = .externalEvents sheet) := by
  have ofSheet : callee.unit = .externalEvents sheet := (of_source_eq_ok calleeWritten).1
  have defines := definedSignature?_eq callee
  rw [ofSheet] at defines
  refine ⟨compiled_of_calls written called, declaredSignature sheet,
    definedSignature (.externalEvents sheet), filter_declaredSignatures called, defines, rfl, rfl,
    ?_⟩
  intro other signature definesOther
  rw [definedSignature?_eq, Option.some.injEq] at definesOther
  subst definesOther
  constructor
  · rintro ⟨⟩
  · exact UnitName.entrySymbol_injective.eq_iff

/-! ## A level and its shop -/

theorem source_shopGame_level : source shopGame (.ofList ["Shop"]) (.scene "Level") =
    .ok ⟨.scene "Level", "Shop", [⟨1, .enter "Shop"⟩, ⟨1, .native "think();".toList⟩]⟩ := by cbv

theorem source_shopGame_shop : source shopGame (.ofList ["Shop"]) (.externalEvents "Shop") =
    .ok ⟨.externalEvents "Shop", "Shop", [⟨1, .comment "sells".toList⟩,
      ⟨1, .begin (.externalEvents "Till")⟩, ⟨1, .native "count();".toList⟩,
      ⟨1, .finish (.externalEvents "Till")⟩]⟩ := by cbv

/-- The level refers to a name that the object of the shop does not define. -/
theorem call_refers_to_no_definition_shopGame :
    ∃ caller callee, source shopGame (.ofList ["Shop"]) (.scene "Level") = .ok caller ∧
      caller.Calls "Shop" ∧
      source shopGame (.ofList ["Shop"]) (.externalEvents "Shop") = .ok callee ∧
      ∃ declared defined : Signature, declared ∈ caller.declaredSignatures ∧
        callee.definedSignature? = some defined ∧ declared.identifier = defined.identifier ∧
        declared.objectName ≠ defined.objectName := by
  have called : Source.Calls ⟨.scene "Level", "Shop",
      [⟨1, .enter "Shop"⟩, ⟨1, .native "think();".toList⟩]⟩ "Shop" := List.mem_cons_self
  refine ⟨_, _, source_shopGame_level, called, source_shopGame_shop, ?_⟩
  rcases call_refers_to_no_definition source_shopGame_level called source_shopGame_shop with
    ⟨_, declared, defined, declares, defines, _, _, undefined⟩
  rcases undefined _ defined defines with ⟨different, isShop⟩
  have member : declared ∈ [declared] := List.mem_singleton_self _
  rw [← declares] at member
  exact ⟨declared, defined, (List.mem_filter.mp member).1, defines, (isShop.mpr rfl).symm,
    different.symm⟩

/-- A caller and a sheet do not always agree. -/
theorem not_always_agrees :
    ¬ ∀ (project : Project) (compiled : NameSet) (unit : UnitName) (sheet : String)
      (caller callee : Source), source project compiled unit = .ok caller → caller.Calls sheet →
      source project compiled (.externalEvents sheet) = .ok callee →
      caller.Agrees callee sheet := by
  intro always
  rcases always shopGame (.ofList ["Shop"]) (.scene "Level") "Shop" _ _ source_shopGame_level
    List.mem_cons_self source_shopGame_shop with ⟨signature, member, _, defines⟩
  rcases mem_declaredSignatures.mp member with ⟨other, _, rfl⟩
  rw [definedSignature?_eq, Option.some.injEq] at defines
  have linkages := congrArg Signature.linkage defines
  cases linkages

end Source

end GameExport.Generation
