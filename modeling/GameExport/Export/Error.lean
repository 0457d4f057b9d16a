import GameExport.Cipher.Descriptor
import GameExport.Inclusion.Analysis
import GameExport.Package.Error
import GameExport.Project.Storage
import GameExport.Text.Duration

/-! # Errors of an export

Everything that can go wrong in an export. A fatal error ends it; any other is recorded, and
the export goes on.
-/

namespace GameExport

inductive ExportError
  | noTarget
  | cyclic (unit : UnitName) (cycle : List String)
  | compileFailed (unit : UnitName) (log : Path)
  | linkFailed (log : Path)
  | resourceNotCopied (path : Path) (cause : PackageError)
  | platformFileNotCopied (path : Path) (isRequired : Bool) (cause : PackageError)
  | notPackaged (path : Path) (isFatal : Bool) (cause : PackageError)
  | descriptorNotWritten (cause : ProjectError)
  | descriptorNotEncrypted (cause : CipherError)
  | workingDirectory (path : Path) (cause : FileError)
  | cancelled
  | timedOut (limit : Duration)
  deriving DecidableEq, Repr

namespace ExportError

def isFatal : ExportError → Bool
  | .platformFileNotCopied _ isRequired _ => isRequired
  | .notPackaged _ isFatal _ => isFatal
  | .resourceNotCopied .. | .workingDirectory .. => false
  | .noTarget | .cyclic .. | .compileFailed .. | .linkFailed _ | .descriptorNotWritten _
  | .descriptorNotEncrypted _ | .cancelled | .timedOut _ => true

def message : ExportError → String
  | .noTarget => "no target system selected"
  | .cyclic unit cycle => InclusionError.message (.cyclic unit cycle)
  | .compileFailed unit log =>
      s!"compilation of {unit.display} failed, see the compiler output in {log.text}"
  | .linkFailed log =>
      s!"linking of the project failed, see the compiler output in {log.text}"
  | .resourceNotCopied path cause => s!"unable to copy resource {path.text}: {cause.message}"
  | .platformFileNotCopied path isRequired cause =>
      let need := if isRequired then " (required to run the game)" else ""
      s!"unable to copy {path.text}{need}: {cause.message}"
  | .notPackaged path _ cause => s!"packaging of {path.text} failed: {cause.message}"
  | .descriptorNotWritten cause => s!"failed to write project descriptor: {cause.message}"
  | .descriptorNotEncrypted cause => s!"failed to encrypt project descriptor: {cause.message}"
  | .workingDirectory path cause => s!"working directory {path.text}: {cause.message}"
  | .cancelled => "build cancelled"
  | .timedOut limit => s!"compiler job timed out after {limit.exactText}"

/-- The error of an export that a unit has no answer for. An unknown unit counts as a cycle of
itself alone. -/
def ofInclusion : InclusionError → ExportError
  | .cyclic unit cycle => .cyclic unit cycle
  | .unknown unit => .cyclic unit [unit.display]

end ExportError

end GameExport
