import GameExport.Generation.Expansion

/-! # Generated sources

A generated source declares the functions of the sheets that it calls and defines one
function, that of its own unit.
-/

namespace GameExport

namespace Generation

/-- How the name of a function is made known to other object files. -/
inductive Linkage
  | plain
  /-- Under the very name, without its types. -/
  | bare
  deriving DecidableEq, Repr

structure Prototype where
  linkage : Linkage
  symbol : String
  deriving DecidableEq, Repr

/-- The text of a prototype. Every function takes the context of the running game. -/
def Prototype.text (prototype : Prototype) : String :=
  let linkage := match prototype.linkage with
    | .plain => ""
    | .bare => "extern \"C\" "
  s!"{linkage}void {prototype.symbol}(RuntimeContext & ctx)"

structure Source where
  unit : UnitName
  projectName : String
  body : List Placed
  deriving DecidableEq, Repr

namespace Source

def calls (source : Source) : NameSet :=
  NameSet.ofList (source.body.filterMap fun placed =>
    match placed.statement with
    | .enter sheet => some sheet
    | _ => none)

def declared (sheet : String) : Prototype :=
  ⟨.plain, (UnitName.externalEvents sheet).entrySymbol⟩

def defined (source : Source) : Prototype := ⟨.bare, source.unit.entrySymbol⟩

def text (source : Source) : String :=
  let declarations := source.calls.toList.map fun sheet => (declared sheet).text ++ ";\n"
  s!"// Events of {source.unit.display} in project '{source.projectName}'.\n" ++
    "#include \"GDCpp/Runtime/RuntimeContext.h\"\n\n" ++
    String.join declarations ++ (if declarations.isEmpty then "" else "\n") ++
    source.defined.text ++ "\n\x7b\n" ++
    String.ofList (source.body.flatMap Placed.text) ++ "\x7d\n"

end Source

def source (project : Project) (compiled : NameSet) (unit : UnitName) :
    Except GenerationError Source := do
  .ok ⟨unit, project.name, ← body project compiled unit⟩

end Generation

abbrev Generator := Project → UnitName → NameSet → Except GenerationError String

def Generation.generate : Generator := fun project unit compiled => do
  .ok (← source project compiled unit).text

end GameExport
