import GameExport.CommandLine.Command
import GameExport.CommandLine.Output
import GameExport.Export.Run
import GameExport.Notice.Console
import GameExport.Text.Size

/-! # Running commands

What each command does: build a game, list what scenes need, decrypt a descriptor, list a
container, and tell how the tool is set up.
-/

namespace GameExport.CommandLine

structure Surroundings where
  environment : Environment
  run : ProgramRunner
  elapsed : Duration

def versionText : String := "gamepack 0.1.0"

def loadSettings (surroundings : Surroundings) (invocation : Invocation) : CommandM Settings := do
  let settings ← orFail "Failed to load tool configuration" SettingsError.causes
    (Settings.load surroundings.environment (← get).files invocation.settings)
  pure { settings with temporary := invocation.temporary.or settings.temporary }

def loadProject (path : Path) : CommandM Project := do
  orFail s!"Failed to load project {path.text}" ProjectError.causes
    (Project.load (← get).files path)

/-! ## Building -/

/-- Settings with the time that a job may take: at least a second. -/
def limitJobs (settings : Settings) (limit : Option Duration) : Settings :=
  match limit with
  | some limit => { settings with jobSeconds := some (max limit.seconds 1) }
  | none => settings

def BuildArguments.options (arguments : BuildArguments) : ExportOptions where
  output := arguments.output
  targets :=
    if arguments.targets.isEmpty then Host.defaultTargets else TargetSet.ofList arguments.targets
  compress := arguments.compress
  optimize := arguments.optimize

def runExport (surroundings : Surroundings) (settings : Settings) (arguments : BuildArguments)
    (project : Project) (extensions : ExtensionRegistry) (files : FileTree) : ExportEnd :=
  let tool : ExportTool := {
    settings := settings
    workingDirectory := settings.workingDirectory surroundings.environment files
    extensions := extensions
    write := Generation.generate.writer
    pack := Container.pack
    archive := Archive.create
    compiler := settings.compiler.compiler surroundings.run }
  let request : ExportRequest := {
    project := project
    options := arguments.options
    caller := ⟨0, []⟩
    tokenId := 1
    react := fun _ world => world }
  exportGame tool request ⟨⟨files, []⟩, Queue.idle settings.logFile settings.jobLimit⟩

def showNotices (isPlain : Bool) (notices : List (Notice Progress)) : CommandM Unit :=
  if isPlain then ((⟨[], none⟩ : PlainLines).lines notices).forM printLine
  else warn (StatusLine.start.text notices)

def errorsOf (notices : List (Notice Progress)) : List String :=
  notices.filterMap fun
    | .error text => some text
    | _ => none

def reportJson (report : ExportReport) (elapsed : Duration) : Json :=
  .object [
    ("artifacts", Json.strings (report.artifacts.map Path.text)),
    ("elapsed_ms", Json.nat (elapsed.nanoseconds / 1000000)),
    ("error", Json.stringOrNull (report.failure.map ExportError.message)),
    ("jobs_submitted", Json.nat report.jobs),
    ("stage", .string report.stage.name),
    ("success", .bool report.isSuccess),
    ("warnings", Json.strings (report.warnings.map ExportError.message))]

def printReport (report : ExportReport) (errors : List String) : CommandM Unit := do
  errors.forM (printHeading .error)
  let files := countText report.artifacts.length "file"
  let problems := countText report.warnings.length "error"
  if report.isSuccess then printHeading .success s!"Build complete ({files})"
  else if report.succeededWithWarnings then printHeading .warning s!"Build finished with {problems}"
  report.artifacts.forM fun artifact => printItem artifact.text
  printStatistic "Compiler jobs" (toString report.jobs)

def build (surroundings : Surroundings) (invocation : Invocation) (arguments : BuildArguments) :
    CommandM Unit := do
  let settings := limitJobs (← loadSettings surroundings invocation) arguments.jobLimit
  let project ← loadProject arguments.project
  let extensions ← orFail "Failed to load extensions" RegistryError.causes
    (ExtensionRegistry.loadIfPresent (← get).files settings.extensionsFile)
  unless arguments.asJson do
    printHeading .information s!"Building {project.name} {arrow} {arguments.output.text}"
  let ended :=
    runExport surroundings settings arguments project extensions (← get).files
  modify fun done => { done with files := ended.workshop.world.files }
  showNotices arguments.isPlain ended.notices
  if arguments.asJson then printJson (reportJson ended.report surroundings.elapsed)
  else
    printReport ended.report (errorsOf ended.notices)
    printStatistic "Time" surroundings.elapsed.brokenText
  match ended.report.failure with
  | some error =>
      throw (.plain s!"Build failed at stage {ended.report.stage.name}: {error.message}")
  | none =>
      let problems := countText ended.report.warnings.length "error"
      unless ended.report.warnings.isEmpty do throw (.plain s!"Build finished with {problems}")

/-! ## Listing what scenes need -/

def sheetsOf (analysis : InclusionAnalysis) (scene : String) (requirements : Requirements) :
    List String :=
  requirements.externalEvents.toList.filter fun sheet => analysis.soleUser? sheet == some scene

def dependenciesJson (analysis : InclusionAnalysis) (entry : String × Requirements) : Json :=
  let (scene, requirements) := entry
  .object [
    ("compiled_sheets", Json.strings (sheetsOf analysis scene requirements)),
    ("dependencies", .object [
      ("external_events", Json.strings requirements.externalEvents.toList),
      ("nested_external_events", Json.strings requirements.nestedExternalEvents.toList),
      ("scenes", Json.strings requirements.scenes.toList),
      ("source_files", Json.strings requirements.sourceFiles.toList)]),
    ("scene", .string scene)]

def printScene (analysis : InclusionAnalysis) (entry : String × Requirements) :
    CommandM Unit := do
  let (scene, requirements) := entry
  printHeading .information s!"Scene '{scene}'"
  if requirements.isEmpty then printLine "  (no dependencies)"
  else
    let scenes := requirements.scenes.toList
    let sheets := requirements.externalEvents.toList
    let sources := requirements.sourceFiles.toList
    let own := sheetsOf analysis scene requirements
    scenes.forM fun name => printItem s!"scene {name}"
    sheets.forM fun sheet =>
      let manner := if own.contains sheet then "own object" else "inlined"
      printItem s!"external events {sheet} ({manner})"
    sources.forM fun name => printItem s!"source file {name}"
    printStatistic "Units" (toString (scenes.length + sheets.length + sources.length))

def dependencies (path : Path) (scene : Option String) (asJson : Bool) : CommandM Unit := do
  let project ← loadProject path
  let analysis := project.inclusionAnalysis
  let scenes ← match scene with
    | none => pure (project.scenes.map (·.name))
    | some name =>
        if (project.scene? name).isSome then pure [name]
        else throw (.plain s!"No scene named '{name}'")
  let entries ← scenes.mapM fun name => do
    let requirements ← orFail s!"Failed to analyze scene '{name}'"
      (fun error => [InclusionError.message error]) (analysis.needs (.scene name))
    pure (name, requirements)
  if asJson then printJson (.array (entries.map (dependenciesJson analysis)))
  else entries.forM (printScene analysis)

/-! ## Decrypting and listing -/

def decrypt (input : Path) (output : Option Path) : CommandM Unit := do
  let files := (← get).files
  let message := "Failed to decrypt descriptor"
  let plain ← match Container.load files input with
    | .error _ => orFail message CipherError.causes (Cipher.decryptFile files input)
    | .ok container =>
        match container.read? encryptedDescriptor with
        | none => throw (.plain s!"{input.text} holds no '{encryptedDescriptor}' entry")
        | some bytes =>
            pure (Cipher.stripPadding (← orFail message CipherError.causes (Cipher.decrypt bytes)))
  match output with
  | none => printBytes plain
  | some path =>
      let files ← orFail s!"Failed to write {path.text}" (fun cause => [FileError.message cause])
        (files.write path plain)
      modify fun done => { done with files := files }
      printHeading .success s!"Decrypted descriptor written to {path.text}"

def inspect (path : Path) (asJson : Bool) : CommandM Unit := do
  let container ← orFail s!"Failed to open container {path.text}" PackageError.causes
    (Container.load (← get).files path)
  let sizes := container.sizes
  if asJson then
    printJson (.array (sizes.map fun (name, size) => Container.manifestEntry name size))
  else
    printHeading .information path.text
    sizes.forM fun (name, size) =>
      printLine ("  " ++ Text.padRight 40 name ++ " " ++ Text.padLeft 10 (Text.size size))
    printLine ""
    printStatistic "Entries" (toString sizes.length)
    printStatistic "Total" (Text.size container.totalSize)

/-! ## How the tool is set up -/

def presence (files : FileTree) (path : Path) : String :=
  if files.pathExists path then path.text else s!"{path.text} (missing)"

def info (surroundings : Surroundings) (invocation : Invocation) : CommandM Unit := do
  let settings ← loadSettings surroundings invocation
  let files := (← get).files
  printLine versionText
  printLine ""
  printLine "System:"
  printStatistic "Host" Host.current.name
  printStatistic "Default targets" (", ".intercalate (Host.defaultTargets.toList.map Target.name))
  printLine ""
  printLine "Installation:"
  printStatistic "Base directory" settings.base.text
  printStatistic "Runtime" (presence files settings.runtimeDirectory)
  printStatistic "Extensions" (presence files settings.extensionsDirectory)
  printStatistic "Generated code" settings.generatedDirectory.text
  printStatistic "Working directory"
    (settings.workingDirectory surroundings.environment files).text
  printStatistic "Compiler" settings.compiler.program

/-! ## Command lines -/

def perform (surroundings : Surroundings) (invocation : Invocation) : CommandM Unit :=
  match invocation.command with
  | .build arguments => build surroundings invocation arguments
  | .dependencies project scene asJson => dependencies project scene asJson
  | .decrypt input output => decrypt input output
  | .inspect container asJson => inspect container asJson
  | .info => info surroundings invocation

def usageText : String :=
  "Usage: gamepack [OPTIONS] <COMMAND>\n\nCommands: " ++
    ", ".intercalate (CommandName.all.map CommandName.text) ++ ", help"

structure CommandEnd where
  code : Nat
  files : FileTree
  output : Bytes
  errors : Bytes

def run (surroundings : Surroundings) (arguments : List String) (files : FileTree) : CommandEnd :=
  let line (text : String) := Bytes.ofText (text ++ "\n")
  match read arguments with
  | .error .usage => ⟨2, files, [], line usageText⟩
  | .error .help => ⟨0, files, line usageText, []⟩
  | .error .version => ⟨0, files, line versionText, []⟩
  | .ok invocation =>
      let (result, done) := (perform surroundings invocation).run.run ⟨files, [], []⟩
      match result with
      | .ok () => ⟨0, done.files, done.output, done.errors⟩
      | .error failure => ⟨1, done.files, done.output, done.errors ++ line failure.text⟩

end GameExport.CommandLine
