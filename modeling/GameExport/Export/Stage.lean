/-! # Stages of an export

An export goes through its stages in order, from the first on, and stops at the one that fails.
-/

namespace GameExport

inductive Stage
  | start
  | validateTargets
  | prepareResources
  | compileUnits
  | copyResources
  | stripAndEncrypt
  | link
  | copyPlatformFiles
  | package
  | done
  deriving DecidableEq, Repr

namespace Stage

def all : List Stage :=
  [.start, .validateTargets, .prepareResources, .compileUnits, .copyResources,
    .stripAndEncrypt, .link, .copyPlatformFiles, .package, .done]

def name : Stage → String
  | .start => "init"
  | .validateTargets => "validate-targets"
  | .prepareResources => "prepare-resources"
  | .compileUnits => "compile-units"
  | .copyResources => "copy-resources"
  | .stripAndEncrypt => "strip-and-encrypt"
  | .link => "link"
  | .copyPlatformFiles => "copy-platform-files"
  | .package => "package"
  | .done => "done"

end Stage

end GameExport
