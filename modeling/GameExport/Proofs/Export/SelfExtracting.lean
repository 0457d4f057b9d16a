import GameExport.Proofs.Archive.Covering
import GameExport.Proofs.Archive.Reading
import GameExport.Proofs.Export.Confinement
import GameExport.Proofs.Package.Joining

/-! # Self-extracting executables

A compressed game is a stub, its settings and an archive of the working directory, one after the
other. Main statement: if no error is recorded while it is made, and no link leads from what is
written to what goes into it, then it carries every regular file of the working directory.
-/

namespace GameExport

open ExportM FileTree

variable {tool : ExportTool} {request : ExportRequest}

/-! ## Recorded errors -/

def RecordsMore (count : Nat) (state : ExportState) : Prop := count < state.warnings.length

theorem meets_record_mild {error : ExportError} (mild : error.isFatal = false)
    {before : ExportState → Prop} {count : Nat}
    (atLeast : ∀ state, before state → count ≤ state.warnings.length) :
    Meets before (record request error) (fun _ => RecordsMore count) fun _ _ => False := by
  intro state holds
  rw [record, mild]
  change count < (state.warnings ++ [error]).length
  rw [List.length_append, List.length_singleton]
  exact Nat.lt_succ_of_le (atLeast state holds)

theorem carries_record_more {error : ExportError} (mild : error.isFatal = false) (count : Nat) :
    Carries (RecordsMore count) (fun _ _ => False) (record request error) :=
  meets_record_mild mild fun _ => Nat.le_of_lt

/-! ## Joining the parts -/

section Paths

variable (tool : ExportTool) (request : ExportRequest)

def archivePath : Path := tool.workingDirectory.child archiveName

def executableParts : List Path :=
  [tool.settings.stubFile, tool.settings.stubSettingsFile, archivePath tool]

def executablePath (project : Project) : Path := request.options.output.child project.windowsName

end Paths

theorem carries_joinExecutable_more (count : Nat) :
    Carries (RecordsMore count) (fun _ _ => False) (joinExecutable tool request) := by
  have looks : Carries (RecordsMore count) (fun _ _ => False) get := fun _ => id
  have changes {ε α : Type} (change : FileTree → FileTree × Except ε α) :
      Carries (RecordsMore count) (fun _ _ => False) (changingFiles change) := fun _ => id
  have adds (path : Path) : Carries (RecordsMore count) (fun _ _ => False) (addArtifact path) :=
    fun _ => id
  unfold joinExecutable
  apply looks.bind
  intro state
  apply (changes _).bind
  intro result
  cases result with
  | error cause => exact carries_record_more rfl count
  | ok skipped =>
      apply (adds _).bind
      intro _
      apply Meets.forM_keeping
      intro cause _
      exact carries_record_more rfl count

theorem meets_joinExecutable (start : ExportState) :
    Meets (fun state => state = start) (joinExecutable tool request)
      (fun _ state => RecordsMore start.warnings.length state ∨
        Package.concatenate start.files (executablePath request start.project)
          (executableParts tool) = (state.files, .ok []))
      fun _ _ => False := by
  unfold joinExecutable
  apply meets_get_bind
  intro state same
  rw [same]
  apply Meets.bind meets_changingFiles
  intro result
  apply Meets.of_start
  intro joined outcome
  rcases outcome with ⟨same, outcome⟩
  have sameWarnings : joined.warnings = start.warnings := by
    rw [same]
    rfl
  have records {cause : ExportError} (mild : cause.isFatal = false) {before : ExportState → Prop}
      (same : ∀ state, before state → state.warnings = start.warnings) :
      Meets before (record request cause)
        (fun _ => RecordsMore start.warnings.length) fun _ _ => False :=
    meets_record_mild mild fun state holds => (congrArg List.length (same state holds)).ge
  cases result with
  | error cause =>
      apply (records rfl _).imp
      · exact fun _ _ => .inl
      · rintro _ rfl
        exact sameWarnings
  | ok skipped =>
      cases skipped with
      | nil =>
          rintro _ rfl
          exact .inr (Prod.ext (by rw [same]; rfl) outcome.symm)
      | cons cause rest =>
          have adds (path : Path) : Meets (fun state => state = joined) (addArtifact path)
              (fun _ state => state.warnings = start.warnings) fun _ _ => False := by
            rintro _ rfl
            exact sameWarnings
          apply (adds _).bind
          intro _
          apply Meets.imp
          · apply Meets.bind (records rfl fun _ => id)
            intro _
            exact Meets.forM_keeping fun cause _ => carries_record_more rfl _
          · exact fun _ _ => .inl

/-! ## Making the executable -/

section Making

variable (tool : ExportTool) (request : ExportRequest) (start : ExportState)

def archivingState : ExportState :=
  stateAfter (say request "Exporting game... ( Compressing )" none) start

def extractingFiles : FileTree := (stateAfter (packageCompressed tool request) start).files

end Making

/-- Whether no link leads from what is written while the executable is made to what goes into it. -/
structure KeptApart (tool : ExportTool) (executable : Path) (files : FileTree) : Prop where
  parts : ∀ part ∈ [tool.settings.stubFile, tool.settings.stubSettingsFile],
    files.WritesApart (archivePath tool) part
  own : Archive.OwnPlace files tool.workingDirectory
  executable : ∀ part ∈ executableParts tool, files.WritesApart executable part

/-- An executable that carries a working directory. `before` are the files that the archive is made
from, `after` the files once the executable has been made. -/
structure Bundles (format : Archive.Format) (tool : ExportTool) (executable : Path)
    (before after : FileTree) (here : Location) (stub settings : Bytes)
    (entries : List Archive.Entry) : Prop where
  home : before.HomeOf tool.workingDirectory here
  stubHeld : before.read tool.settings.stubFile = .ok stub
  settingsHeld : before.read tool.settings.stubSettingsFile = .ok settings
  covers : Archive.Covers before here entries
  made : after.read executable = .ok (stub ++ settings ++ format.encode entries)

/-- An executable that carries a working directory and gives it back. -/
structure Extracts (format : Archive.Format) (tool : ExportTool) (executable : Path)
    (before after : FileTree) (here : Location) (stub settings : Bytes)
    (entries : List Archive.Entry) : Prop
    extends Bundles format tool executable before after here stub settings entries where
  archiveLeft : after.read (archivePath tool) = .ok (format.encode entries)
  extracts : format.CanHold entries →
    format.decode? (stub ++ settings ++ format.encode entries) = some entries

/-- Making the executable never ends an export. Either an error is recorded, or the archive has been
made and joined to the other parts. -/
theorem meets_packageCompressed (tool : ExportTool) (request : ExportRequest)
    (start : ExportState) :
    Meets (fun state => state = start) (packageCompressed tool request)
      (fun _ state => RecordsMore start.warnings.length state ∨
        ∃ archived, tool.archive (archivingState request start).files tool.workingDirectory
            (archivePath tool) = (archived, .ok ()) ∧
          Package.concatenate archived (executablePath request start.project)
            (executableParts tool) = (state.files, .ok []))
      fun _ _ => False := by
  have told : Meets (fun state => state = start)
      (say request "Exporting game... ( Compressing )" none)
      (fun _ state => state = archivingState request start) fun _ _ => False := by
    rintro _ rfl
    rfl
  unfold packageCompressed
  apply Meets.bind told
  intro _
  apply Meets.bind meets_changingFiles
  intro result
  apply Meets.of_start
  intro archived outcome
  rcases outcome with ⟨rfl, outcome⟩
  cases result with
  | error cause =>
      have records : Meets (fun state => state = (archivingState request start).withFiles
            (tool.archive (archivingState request start).files tool.workingDirectory
              (archivePath tool)).1)
          (record request (.notPackaged (archivePath tool) false cause))
          (fun _ => RecordsMore start.warnings.length) fun _ _ => False := by
        apply meets_record_mild rfl
        rintro _ rfl
        exact Nat.le_refl _
      apply Meets.bind records
      intro _
      exact (carries_joinExecutable_more _).imp fun _ _ => .inl
  | ok =>
      apply (meets_joinExecutable _).imp
      rintro _ state (more | joined)
      · exact .inl more
      · exact .inr ⟨_, Prod.ext rfl outcome.symm, joined⟩

/-! ## What the executable carries -/

theorem contents_of_joins {files : FileTree} {parts : List Path} {joined : Bytes}
    (joins : Package.Joins files parts joined []) :
    ∃ contents, List.Forall₂ (fun part content => files.read part = .ok content) parts contents ∧
      joined = contents.flatten := by
  have none : (parts.filter fun part => !files.pathExists part) = [] :=
    List.forall₂_nil_right_iff.mp joins.report
  have all : (parts.filter fun part => files.pathExists part) = parts := by
    rw [List.filter_eq_self]
    intro part member
    simpa using List.filter_eq_nil_iff.mp none part member
  have content := joins.content
  rwa [all] at content

/-- An archive that has been made and joined to the other parts makes an executable that carries
the working directory. -/
theorem extracts_of_concatenate (format : Archive.Format) {executable : Path}
    {before archived after : FileTree} (kept : before.Kept)
    (apart : KeptApart tool executable before)
    (archives : Archive.createWith format.encode before tool.workingDirectory (archivePath tool) =
      (archived, .ok ()))
    (concatenates : Package.concatenate archived executable (executableParts tool) =
      (after, .ok [])) :
    ∃ here stub settings entries,
      Extracts format tool executable before after here stub settings entries := by
  rcases Archive.exists_homeOf_of_createWith archives with ⟨here, home⟩
  rcases Archive.covers_of_createWith kept home apart.own archives with
    ⟨location, entries, opens, rfl, covers⟩
  have differ := kept.rooted.differAt_put opens (format.encode entries)
  have rooted := (kept.put_writable opens (format.encode entries)).rooted
  have others := fun part member =>
    (apart.executable part member).differAt kept.rooted rooted differ
  rcases Package.joins_of_concatenate rooted others concatenates with
    ⟨output, joined, opensOutput, rfl, held, joins⟩
  rcases contents_of_joins joins with ⟨contents, reads, rfl⟩
  rw [executableParts] at reads
  rcases reads with _ | ⟨readsStub, _ | ⟨readsSettings, _ | ⟨readsArchive, _ | _⟩⟩⟩
  rename_i stub settings archive
  have archiveHeld : (before.put location (.file (format.encode entries))).read
      (archivePath tool) = .ok (format.encode entries) :=
    read_put kept.rooted opens (format.encode entries)
  cases archiveHeld.symm.trans readsArchive
  refine ⟨here, stub, settings, entries, ⟨home, ?_, ?_, covers, ?_⟩, ?_, ?_⟩
  · exact (read_eq_ok_of_differAt differ (apart.parts _ (by simp) _ opens)).mp readsStub
  · exact (read_eq_ok_of_differAt differ (apart.parts _ (by simp) _ opens)).mp readsSettings
  · rw [held]
    simp
  · have differOutput := rooted.differAt_put opensOutput
      [stub, settings, format.encode entries].flatten
    exact (read_eq_ok_of_differAt differOutput
      (others _ (by simp [executableParts]) _ opensOutput)).mpr archiveHeld
  · exact fun held => format.decode?_append held (stub ++ settings)

/-- A self-extracting executable that is made without an error carries the working directory: it is
the stub, the settings and an archive of every regular file there, whatever its format. Joining
files that succeeds has written the contents of those that can be opened, and reports the others. -/
theorem packageCompressed_carriesAll :
    (∀ (format : Archive.Format) (tool : ExportTool) (request : ExportRequest)
        (start : ExportState),
      tool.archive = Archive.createWith format.encode →
      (archivingState request start).files.Kept →
      KeptApart tool (executablePath request start.project) (archivingState request start).files →
      (stateAfter (packageCompressed tool request) start).warnings = start.warnings →
      ∃ here stub settings entries,
        Extracts format tool (executablePath request start.project)
          (archivingState request start).files (extractingFiles tool request start) here stub
          settings entries) ∧
    ∀ (files after : FileTree) (output : Path) (parts : List Path) (skipped : List PackageError),
      files.Rooted → (∀ part ∈ parts, files.WritesApart output part) →
      Package.concatenate files output parts = (after, .ok skipped) →
      ∃ joined, after.read output = .ok joined ∧ Package.Joins files parts joined skipped := by
  constructor
  · intro format tool request start creates kept apart spotless
    have ran := meets_packageCompressed tool request start start rfl
    rw [extractingFiles]
    rw [stateAfter] at spotless ⊢
    generalize (packageCompressed tool request).run.run start = outcome at ran spotless ⊢
    rcases outcome with ⟨result, state⟩
    cases result with
    | error error => exact ran.elim
    | ok =>
        rcases ran with more | ⟨archived, archives, joins⟩
        · rw [RecordsMore, spotless] at more
          exact absurd more (Nat.lt_irrefl _)
        · rw [creates] at archives
          exact extracts_of_concatenate format kept apart archives joins
  · intro files after output parts skipped rooted apart done
    rcases Package.joins_of_concatenate rooted apart done with ⟨_, joined, _, _, held, joins⟩
    exact ⟨joined, held, joins⟩

/-! ## An export that makes an executable -/

def archivingTool : ExportTool := { obligingTool with archive := Archive.create }

def compressedRequest : ExportRequest :=
  { launcherRequest "Hero" with options := ⟨⟨"/out"⟩, .only .windows, true, false⟩ }

def stockedFiles (further : List (Location × Node)) : FileTree :=
  ⟨[(["base"], .directory), (["base", "7zS.sfx"], .file [77, 90]),
    (["base", "config.txt"], .file [59]), (["out"], .directory), (["work"], .directory),
    (["work", "Code.so"], .file [1])] ++ further, []⟩

def stockedState (further : List (Location × Node)) : ExportState :=
  .initial { runtimeWorkshop with world := ⟨stockedFiles further, []⟩ } compressedRequest.project

def gamePath : Path := executablePath compressedRequest compressedRequest.project

def finishedFiles (further : List (Location × Node)) : FileTree :=
  extractingFiles archivingTool compressedRequest (stockedState further)

def stockedWarnings (further : List (Location × Node)) : List ExportError :=
  (stateAfter (packageCompressed archivingTool compressedRequest) (stockedState further)).warnings

def nestedNodes : List (Location × Node) :=
  [(["work", "archive.zip"], .file [9]), (["work", "art"], .directory),
    (["work", "art", "archive.zip"], .file [4]), (["work", "art", "hero.png"], .file [2, 3]),
    (["work", "menu.png"], .link ⟨"art/hero.png"⟩)]

def looseParts : List Path := [⟨"/base/7zS.sfx"⟩, ⟨"/base/none.sfx"⟩, ⟨"/work/menu.png"⟩]

theorem keptApart_nested : KeptApart archivingTool gamePath (stockedFiles nestedNodes) := by
  have home : (stockedFiles nestedNodes).HomeOf archivingTool.workingDirectory ["work"] := by
    decide +kernel
  constructor
  · decide +kernel
  · exact Archive.ownPlace_of_home home (by decide +kernel)
  · decide +kernel

/-- An archive in a directory is carried, what was in the place of the archive is not. Of files to
be joined one is missing, and a link leads to another. -/
theorem packageCompressed_carriesNested :
    (archivingTool.archive = Archive.createWith Archive.stored.encode ∧
      (stockedFiles nestedNodes).Kept ∧
      KeptApart archivingTool gamePath (stockedFiles nestedNodes) ∧
      stockedWarnings nestedNodes = [] ∧
      ∃ here stub settings entries, Extracts Archive.stored archivingTool gamePath
        (stockedFiles nestedNodes) (finishedFiles nestedNodes) here stub settings entries) ∧
    (stockedFiles nestedNodes).Rooted ∧
      (∀ part ∈ looseParts, (stockedFiles nestedNodes).WritesApart gamePath part) ∧
      ∃ after skipped,
        Package.concatenate (stockedFiles nestedNodes) gamePath looseParts = (after, .ok skipped) ∧
        skipped.length = 1 ∧ ∃ joined, after.read gamePath = .ok joined ∧
          Package.Joins (stockedFiles nestedNodes) looseParts joined skipped := by
  have kept : (stockedFiles nestedNodes).Kept := by decide +kernel
  have spotless : stockedWarnings nestedNodes = [] :=
    List.eq_nil_of_length_eq_zero (by decide +kernel)
  have apart : ∀ part ∈ looseParts, (stockedFiles nestedNodes).WritesApart gamePath part := by
    decide +kernel
  have done : (Package.concatenate (stockedFiles nestedNodes) gamePath looseParts).2.toOption.map
      List.length = some 1 := by decide +kernel
  refine ⟨⟨rfl, kept, keptApart_nested, spotless, ?_⟩, kept.rooted, apart, ?_⟩
  · exact packageCompressed_carriesAll.1 Archive.stored archivingTool compressedRequest
      (stockedState nestedNodes) rfl kept keptApart_nested spotless
  · generalize outcome : Package.concatenate _ gamePath looseParts = joined at done
    rcases joined with ⟨after, result⟩
    cases result with
    | error error => cases done
    | ok skipped =>
        refine ⟨after, skipped, rfl, Option.some.inj done, ?_⟩
        exact packageCompressed_carriesAll.2 (stockedFiles nestedNodes) after gamePath looseParts
          skipped kept.rooted apart outcome

/-- Whether an executable that is made from such files without an error does not carry the working
directory. -/
def Misses (further : List (Location × Node)) : Prop :=
  archivingTool.archive = Archive.createWith Archive.stored.encode ∧ (stockedFiles further).Kept ∧
    stockedWarnings further = [] ∧
    ¬ ∃ here stub settings entries, Bundles Archive.stored archivingTool gamePath
      (stockedFiles further) (finishedFiles further) here stub settings entries

theorem misses_of_not_prefix {further : List (Location × Node)}
    (kept : (stockedFiles further).Kept) (spotless : (stockedWarnings further).length = 0)
    (other : ∀ made ∈ ((finishedFiles further).read gamePath).toOption,
      ∀ stub ∈ ((stockedFiles further).read ⟨"/base/7zS.sfx"⟩).toOption, ¬ stub <+: made) :
    Misses further := by
  refine ⟨rfl, kept, List.eq_nil_of_length_eq_zero spotless, ?_⟩
  rintro ⟨here, stub, settings, entries, bundles⟩
  have held : (stockedFiles further).read ⟨"/base/7zS.sfx"⟩ = .ok stub := bundles.stubHeld
  apply other _ (by rw [bundles.made]; rfl) stub (by rw [held]; rfl)
  rw [List.append_assoc]
  exact List.prefix_append _ _

theorem eq_singleton_of_covers {tree : FileTree} {here : Location} {entries : List Archive.Entry}
    {name : String} {content : Bytes} (covers : Archive.Covers tree here entries)
    (other : name ≠ archiveName) (taken : tree.node? (here ++ [name]) = some (.file content))
    (single : ∀ names bytes, tree.node? (here ++ names) = some (.file bytes) → names = [name]) :
    entries = [⟨name, content⟩] := by
  have distinct : entries.Nodup := .of_map Archive.Entry.name covers.once
  apply List.perm_singleton.mp
  rw [List.perm_ext_iff_of_nodup distinct (List.nodup_singleton _)]
  intro entry
  rw [covers.exactly, List.mem_singleton]
  constructor
  · rintro ⟨names, _, _, named, held⟩
    obtain rfl := single names _ held
    rcases entry with ⟨itsName, itsContent⟩
    cases taken.symm.trans held
    cases named
    rfl
  · rintro rfl
    exact ⟨[name], by simp, by simpa using other, rfl, taken⟩

def ownLink : List (Location × Node) := [(["work", "archive.zip"], .link ⟨"Code.so"⟩)]

/-- If the archive is opened at a file of the directory, what that holds is lost. -/
theorem misses_ownLink : Misses ownLink := by
  refine ⟨rfl, by decide +kernel,
    List.eq_nil_of_length_eq_zero (by decide +kernel), ?_⟩
  rintro ⟨here, stub, settings, entries, bundles⟩
  have home : (stockedFiles ownLink).HomeOf archivingTool.workingDirectory ["work"] := by
    decide +kernel
  obtain rfl := bundles.home.unique home
  have single : entries = [⟨"Code.so", [1]⟩] := by
    apply eq_singleton_of_covers bundles.covers (by decide) rfl
    intro names bytes held
    have member : ("work" :: names, Node.file bytes) ∈ (stockedFiles ownLink).nodes :=
      mem_nodes_of_node? (List.cons_ne_nil _ _) held
    have same : names = ["Code.so"] ∧ bytes = [1] := by
      simpa [stockedFiles, ownLink] using member
    exact same.1
  subst single
  have stubHeld : ((stockedFiles ownLink).read archivingTool.settings.stubFile).toOption =
      some [77, 90] := by decide +kernel
  have settingsHeld : ((stockedFiles ownLink).read
      archivingTool.settings.stubSettingsFile).toOption = some [59] := by decide +kernel
  have emptied : ((finishedFiles ownLink).read gamePath).toOption =
      some ([77, 90] ++ [59] ++ Archive.encode [⟨"Code.so", []⟩]) := by decide +kernel
  have made := bundles.made
  cases (eq_ok_of_toOption stubHeld).symm.trans bundles.stubHeld
  cases (eq_ok_of_toOption settingsHeld).symm.trans bundles.settingsHeld
  rw [eq_ok_of_toOption emptied] at made
  exact absurd (Except.ok.inj made) (by decide +kernel)

/-- An executable that is made without an error need not carry the working directory: it may be
opened at the stub, and so may the archive, or the archive at a file that it is to hold. -/
theorem not_always_carriesAll :
    Misses [(["out", "GameWin.exe"], .link ⟨"/base/7zS.sfx"⟩)] ∧
      Misses [(["work", "archive.zip"], .link ⟨"/base/7zS.sfx"⟩)] ∧ Misses ownLink := by
  refine ⟨?_, ?_, misses_ownLink⟩
  · exact misses_of_not_prefix (by decide +kernel) (by decide +kernel) (by decide +kernel)
  · exact misses_of_not_prefix (by decide +kernel) (by decide +kernel) (by decide +kernel)

end GameExport
