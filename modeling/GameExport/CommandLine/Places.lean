import GameExport.CommandLine.Command
import GameExport.Settings.Environment

/-! # The places of a command line

The files and directories that a command line works on, so that whoever holds the files knows
which of them it needs: some are named by the command line itself, the others by the settings
that it reads.
-/

namespace GameExport

namespace CommandLine

def Command.places : Command → List Path
  | .build arguments => [arguments.project.parent, arguments.output]
  | .dependencies project _ _ => [project]
  | .decrypt input output => input :: output.toList
  | .inspect container _ => [container]
  | .info => []

def Invocation.places (invocation : Invocation) (environment : Environment) : List Path :=
  invocation.settings.toList ++ environment.settingsDirectory?.toList ++ invocation.command.places

end CommandLine

def Settings.places (settings : Settings) (environment : Environment) (files : FileTree) :
    List Path := [
  settings.platformDirectory, settings.stubFile, settings.stubSettingsFile, settings.loaderFile,
  settings.generatedDirectory, settings.workingDirectory environment files]

end GameExport
