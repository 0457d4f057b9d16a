import GameExport.FileTree.Error
import GameExport.Json.Decoder
import GameExport.Path

/-! # Errors of packaging

Why a file could not be listed, copied, joined, packed or read as a container.
-/

namespace GameExport

inductive ContainerProblem
  | badMagic
  | unsupportedVersion (version : Nat)
  | truncatedManifest
  | malformedManifest
  | truncatedBlob (name : String)
  | manifestTooLarge
  | sizeChanged (found expected : Nat)
  | other (reason : String)
  deriving DecidableEq, Repr

def ContainerProblem.text : ContainerProblem → String
  | .badMagic => "bad magic"
  | .unsupportedVersion version => s!"unsupported version {version}"
  | .truncatedManifest => "truncated manifest"
  | .malformedManifest => "<json>"
  | .truncatedBlob name => s!"truncated blob for {name}"
  | .manifestTooLarge => "manifest too large"
  | .sizeChanged found expected => s!"size changed while packing ({found} != {expected})"
  | .other reason => reason

inductive PackageError
  | io (path : Path) (cause : FileError)
  | copy (source target : Path) (cause : FileError)
  | invalidContainer (path : Path) (problem : ContainerProblem)
  deriving DecidableEq, Repr

namespace PackageError

def message : PackageError → String
  | .io path cause => s!"i/o error on {path.text}: {cause.message}"
  | .copy source target cause =>
      s!"failed to copy {source.text} to {target.text}: {cause.message}"
  | .invalidContainer path problem =>
      s!"{path.text} is not a valid container: {problem.text}"

/-- The file that an error is about; for a copy the file that was to be copied. -/
def path : PackageError → Path
  | .io path _ => path
  | .copy source _ _ => source
  | .invalidContainer path _ => path

end PackageError

end GameExport
