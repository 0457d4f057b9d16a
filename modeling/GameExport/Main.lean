import GameExport.CommandLine.Places
import GameExport.CommandLine.Run

/-! # The command line tool

The outer layer: it takes in the places that a command line needs, runs the command line on
them, prints what was printed, and puts back what was changed. It starts no program, so calls
of a compiler fail here.
-/

namespace GameExport.CommandLine

def namesOf (path : Path) : Location := (FileTree.steps path).filter (· != ".")

def onDisk (location : Location) : IO.FS.DirEntry := ⟨"/", "/".intercalate location⟩

/-- Take in what the disk holds at a location, with everything below it, as what stands at a
location of the tree. Links below it are left out, and so is what cannot be read. -/
partial def takeIn (files : FileTree) (location source : Location) : IO FileTree := do
  let path := (onDisk source).path
  try
    match (← path.symlinkMetadata).type with
    | .dir =>
        let mut files := files.put location .directory
        for entry in ← path.readDir do
          files ← takeIn files (location ++ [entry.fileName]) (source ++ [entry.fileName])
        pure files
    | .file => pure (files.put location (.file (← IO.FS.readBinFile path).toList))
    | _ => pure files
  catch _ => pure files

def takePlace (files : FileTree) (place : Path) : IO FileTree := do
  let path := (Path.ofNames files.start).join place
  let names := namesOf path
  let mut files := files
  for depth in [1 : names.length] do
    let location := names.take depth
    if ← (onDisk location).path.isDir then files := files.put location .directory
  try
    let source := namesOf ⟨(← IO.FS.realPath path.text).toString⟩
    takeIn files (if names.contains ".." then source else names) source
  catch _ => pure files

def takeEnvironment : IO Environment := do
  let names := ["GAMEPACK_HOME", "GAMEPACK_TEMP_DIR", "GAMEPACK_COMPILER", "XDG_CONFIG_HOME",
    "HOME", "TMPDIR"]
  names.filterMapM fun name => do pure ((← IO.getEnv name).map fun value => (name, value))

def takeFiles (environment : Environment) (arguments : List String) : IO FileTree := do
  let start := namesOf ⟨(← IO.currentDir).toString⟩
  let mut files : FileTree := ⟨[], start⟩
  match read arguments with
  | .error _ => pure files
  | .ok invocation =>
      for directory in [environment.temporaryDirectory, Path.ofNames start] ++
          environment.home?.toList do
        files ← takePlace files (directory.child "gamepack")
      for place in invocation.places environment do
        files ← takePlace files place
      match Settings.load environment files invocation.settings with
      | .error _ => pure files
      | .ok settings =>
          let settings :=
            { settings with temporary := invocation.temporary.or settings.temporary }
          for place in settings.places environment files do
            files ← takePlace files place
          pure files

def putBack (before after : FileTree) : IO Unit := do
  for (location, _) in before.nodes do
    let path := (onDisk location).path
    if (after.node? location).isNone && (← path.pathExists) then
      if ← path.isDir then IO.FS.removeDirAll path else IO.FS.removeFile path
  for (location, node) in after.nodes do
    let path := (onDisk location).path
    if before.node? location != some node then
      match node with
      | .directory => IO.FS.createDirAll path
      | .file content => IO.FS.writeBinFile path ⟨content.toArray⟩
      | .link _ => pure ()

def timed (run : Duration → CommandEnd) : IO CommandEnd := do
  let start ← IO.monoNanosNow
  let untimed ← IO.lazyPure fun _ => run ⟨0⟩
  let stop ← IO.monoNanosNow
  pure (if untimed.code = 2 then untimed else run ⟨stop - start⟩)

end GameExport.CommandLine

open GameExport GameExport.CommandLine in
def main (arguments : List String) : IO UInt32 := do
  let environment ← takeEnvironment
  let files ← takeFiles environment arguments
  let runner : ProgramRunner := fun _ _ _ => .error (.system 38)
  let ended ← timed fun elapsed => run ⟨environment, runner, elapsed⟩ arguments files
  putBack files ended.files
  (← IO.getStdout).write ⟨ended.output.toArray⟩
  (← IO.getStderr).write ⟨ended.errors.toArray⟩
  pure ended.code.toUInt32
