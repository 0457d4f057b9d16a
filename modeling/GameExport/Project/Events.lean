import GameExport.Project.Basic

/-! # Walking through events

Three walks through a forest of events, each in the order in which the events are written and
each event before those below it: the links with whether they stand at the top, the source
files that code depends on, and the files that instructions mention.
-/

namespace GameExport

mutual
/-- The targets of the links in an event. A link stands at the top if the event itself is the
link and stands at the top. -/
def Event.links (top : Bool) : Event → List (String × Bool)
  | .standard _ subEvents => linksIn false subEvents
  | .link target => [(target, top)]
  | .code _ _ subEvents => linksIn false subEvents
  | .comment _ => []

def linksIn (top : Bool) : List Event → List (String × Bool)
  | [] => []
  | event :: rest => event.links top ++ linksIn top rest
end

mutual
def Event.dependencies : Event → List String
  | .standard _ subEvents => dependenciesIn subEvents
  | .link _ => []
  | .code _ dependencies subEvents => dependencies ++ dependenciesIn subEvents
  | .comment _ => []

def dependenciesIn : List Event → List String
  | [] => []
  | event :: rest => event.dependencies ++ dependenciesIn rest
end

def Argument.file? : Argument → Option String
  | .value _ => none
  | .file path => some path

mutual
/-- The files that the instructions in an event mention. Code mentions none itself. -/
def Event.files : Event → List String
  | .standard instructions subEvents =>
      instructions.flatMap (fun instruction => instruction.arguments.filterMap Argument.file?) ++
        filesIn subEvents
  | .link _ => []
  | .code _ _ subEvents => filesIn subEvents
  | .comment _ => []

def filesIn : List Event → List String
  | [] => []
  | event :: rest => event.files ++ filesIn rest
end

section Rename

variable {m : Type → Type} [Monad m] (rename : String → m String)

def Argument.renameFile : Argument → m Argument
  | .value text => pure (.value text)
  | .file path => do pure (.file (← rename path))

def Instruction.renameFiles (instruction : Instruction) : m Instruction := do
  pure { instruction with arguments := ← instruction.arguments.mapM (Argument.renameFile rename) }

mutual
/-- An event with its files renamed, in the order of `Event.files`. -/
def Event.renameFiles : Event → m Event
  | .standard instructions subEvents => do
      let instructions ← instructions.mapM (Instruction.renameFiles rename)
      pure (.standard instructions (← renameFilesIn subEvents))
  | .link target => pure (.link target)
  | .code text dependencies subEvents => do
      pure (.code text dependencies (← renameFilesIn subEvents))
  | .comment text => pure (.comment text)

def renameFilesIn : List Event → m (List Event)
  | [] => pure []
  | event :: rest => do
      let event ← event.renameFiles
      pure (event :: (← renameFilesIn rest))
end

end Rename

end GameExport
