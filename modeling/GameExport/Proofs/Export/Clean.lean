import GameExport.Proofs.Export.Enduring
import GameExport.Proofs.FileTree.Emptying
import GameExport.Proofs.Resource.Naming

/-! # What is known of an export without errors

An error that does not end an export is recorded, so what each part does to the files can be told
from its end as long as nothing has been recorded. Main statements: preparing the resources leaves
the working directory empty and the names of the resources apart, and compiling keeps the names.
-/

namespace GameExport

open ExportM

variable (tool : ExportTool) (request : ExportRequest)

/-- Whether the host changes no file, whatever it is told. -/
def ExportRequest.IsQuiet : Prop :=
  ∀ notice world, (request.react notice world).files = world.files

/-- As long as no error has been recorded, the files have a property. -/
def Clean (holds : FileTree → Prop) (state : ExportState) : Prop :=
  state.warnings = [] → holds state.files

/-! ## Rules -/

section Rules

variable {request} {holds : FileTree → Prop}

theorem maintains_tell (quiet : request.IsQuiet) (notice : Notice Progress) :
    Maintains (Clean holds) (tell request notice) := by
  apply Meets.modify
  intro state clean spotless
  have same := quiet notice state.workshop.world
  change holds (request.react notice state.workshop.world).files
  rw [same]
  exact clean spotless

theorem maintains_say (quiet : request.IsQuiet) (text : String) (detail : Option String) :
    Maintains (Clean holds) (say request text detail) :=
  maintains_tell quiet _

theorem maintains_progress (quiet : request.IsQuiet) (value : Progress) :
    Maintains (Clean holds) (progress request value) :=
  maintains_tell quiet _

theorem meets_record {before : ExportState → Prop} (error : ExportError) :
    Meets before (record request error) (fun _ => Clean holds) fun _ _ => True := by
  unfold record
  split
  · exact .throw fun _ _ => trivial
  · apply Meets.bind (Meets.anything (tell request _))
    intro _
    apply Meets.modify
    intro state _ spotless
    simp at spotless

theorem meets_attempt {ε : Type} {change : FileTree → Except ε FileTree} {blame : ε → ExportError}
    {next : FileTree → Prop}
    (step : ∀ files after, holds files → change files = .ok after → next after) :
    Meets (Clean holds) (attempt request change blame) (fun _ => Clean next) fun _ _ => True := by
  apply meets_get_bind
  intro start clean
  split
  · rename_i after changed
    apply Meets.modify
    intro state same
    subst same
    intro spotless
    exact step _ after (clean spotless) changed
  · exact meets_record _

end Rules

/-! ## Preparing the resources -/

def Emptied (files : FileTree) : Prop :=
  tool.workingDirectory.text ≠ "" ∧ FileTree.Emptied tool.workingDirectory files

theorem meets_emptyWorkingDirectory :
    Meets (fun _ => True) (emptyWorkingDirectory tool request)
      (fun _ => Clean (Emptied tool)) fun _ _ => True := by
  unfold emptyWorkingDirectory
  apply Meets.bind (Meets.anything (changingFiles _))
  intro created
  cases created with
  | error cause => exact meets_record _
  | ok =>
      apply meets_get_bind
      intro start _
      dsimp only
      split
      · exact meets_record _
      · rename_i here node found
        have notEmpty : tool.workingDirectory.text ≠ "" := by
          rcases FileTree.find_eq_ok_iff.mp found with ⟨isOpen, arrives, _⟩
          exact (FileTree.place_eq_ok_iff.mp arrives).1.notEmpty
        have removal (done : List (String × Node)) (entry : String × Node) :
            Meets (Clean (FileTree.Removed start.files here done))
              (attempt request (removeEntry (tool.workingDirectory.child entry.1))
                (.workingDirectory (tool.workingDirectory.child entry.1)))
              (fun _ => Clean (FileTree.Removed start.files here (done ++ [entry])))
              fun _ _ => True := by
          apply meets_attempt
          intro files after removed next
          exact removed.step notEmpty found next
        have all := Meets.forM fun done entry rest
          (_ : start.files.sortedChildren here = done ++ entry :: rest) => removal done entry
        apply all.weaken
        · intro state same _
          subst same
          exact ⟨.refl _, nofun⟩
        · intro _ state clean spotless
          exact ⟨notEmpty, (clean spotless).emptied found⟩
        · exact fun _ _ => id

theorem meets_prepareResources_emptied (quiet : request.IsQuiet) :
    Meets (fun _ => True) (prepareResources tool request) (fun _ => Clean (Emptied tool))
      fun _ _ => True := by
  have rest : Meets (fun _ => True)
      (do
        emptyWorkingDirectory tool request
        say request preparingMessage none
        let project := (← get).project
        let renamed ← project.renameFiles (exposeFile project.baseDirectory) fun name =>
          say request preparingMessage (some name)
        modify fun state => { state with project := renamed })
      (fun _ => Clean (Emptied tool)) fun _ _ => True := by
    apply Meets.bind (meets_emptyWorkingDirectory tool request)
    intro _
    apply Meets.bind (maintains_say quiet _ _).meets
    intro _
    apply meets_get_bind
    intro start clean
    have renames : Maintains (Clean (Emptied tool))
        (start.project.renameFiles (exposeFile start.project.baseDirectory) fun name =>
          say request preparingMessage (some name)) :=
      carries_renameFiles (fun _ _ => id) (fun _ => maintains_say quiet _ _) _
    apply Meets.bind (renames.meets.start clean)
    intro renamed
    exact .modify fun _ => id
  unfold prepareResources
  apply meets_get_bind
  intro start _
  dsimp only
  split
  · apply Meets.bind (Meets.anything (say request _ _))
    intro _
    apply Meets.bind (Meets.anything (waitForQueue tool request))
    intro _
    exact rest
  · exact rest.start trivial

def NamesApart (state : ExportState) : Prop := state.resources.Apart

theorem namesApart_of_core {α : Type} {part : ExportM α} (keeps : Keeps ExportState.core part) :
    Maintains NamesApart part :=
  keeps.maintains fun core => core.resources.Apart

theorem maintains_waitForQueue {property : ExportState → Prop}
    (step : ∀ state ended, property state → property (state.resumed ended)) :
    Maintains property (waitForQueue tool request) := by
  apply meets_get_bind
  intro start holds
  apply Meets.start _ holds
  apply meets_resume tool request
  · exact fun _ state => step state _
  · exact fun _ state => step state _

theorem namesApart_prepareResources : Maintains NamesApart (prepareResources tool request) := by
  apply maintains_prepareResources gives_renameFiles_shipping
  · exact fun text detail => namesApart_of_core (keeps_say request text detail)
  · exact maintains_waitForQueue tool request fun _ _ => id
  · exact namesApart_of_core (keeps_emptyWorkingDirectory tool request)
  · exact fun base path state apart => apart.expose state.files base path
  · exact fun _ _ _ _ apart _ => apart

/-! ## Compiling the units -/

/-- The names of the resources are those of an earlier state, and if no error has been recorded,
then none had been recorded then. -/
def Follows (earlier state : ExportState) : Prop :=
  state.resources = earlier.resources ∧ (state.warnings = [] → earlier.warnings = [])

section Compiling

variable {tool request} {earlier : ExportState}

theorem follows_tell (notice : Notice Progress) :
    Maintains (Follows earlier) (tell request notice) :=
  fun _ => id

theorem follows_record (error : ExportError) :
    Maintains (Follows earlier) (record request error) := by
  unfold record
  split
  · exact Meets.throw fun _ => id
  · apply Meets.bind (follows_tell _)
    intro _
    apply Meets.modify
    intro state follows
    exact ⟨follows.1, fun spotless => absurd spotless (by simp)⟩

theorem enduring_follows : Enduring request (fun _ => True) (Follows earlier) where
  told := follows_tell
  resumed := fun _ _ => id
  submitted := fun _ _ _ => id
  taken := fun _ _ => id
  met := fun _ _ => id

theorem follows_compileUnits : Maintains (Follows earlier) (compileUnits tool request) := by
  apply maintains_compileUnits
  apply enduring_follows.lasting.checked.compileUnits
  · exact fun _ _ => trivial
  · exact fun _ => id
  · exact maintains_makeGenerated (fun _ => id) follows_record
  · exact fun _ _ _ => trivial

end Compiling

end GameExport
