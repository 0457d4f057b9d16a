import GameExport.Archive.Creation
import GameExport.Package.Files
import GameExport.Proofs.Container.Contents
import GameExport.Proofs.FileTree.Change

/-! # What packing and joining write

Main statement: packing, archiving and joining files change nothing but the file that their output
is opened at, whether they succeed or not.
-/

namespace GameExport

open FileTree

def FileTree.WritesAt (output : Path) (before after : FileTree) : Prop :=
  after = before ∨ ∃ location content, before.writable output = .ok location ∧
    after = before.put location (.file content)

/-- A packer that changes nothing but its output. -/
def Packer.KeepsToOutput (pack : Packer) : Prop :=
  ∀ files names directory output, WritesAt output files (pack files names directory output).1

def Archiver.KeepsToOutput (archive : Archiver) : Prop :=
  ∀ files directory output, WritesAt output files (archive files directory output).1

def Packer.WritesOutput (pack : Packer) : Prop :=
  ∀ files names directory output after, pack files names directory output = (after, .ok ()) →
    ∃ location content, files.writable output = .ok location ∧
      after = files.put location (.file content)

theorem Container.pack_writesOutput : Packer.WritesOutput Container.pack := by
  intro files names directory output after packed
  rcases of_pack packed with ⟨sizes, location, _, _, opens, appended⟩
  rcases appendBlobs_puts (ne_nil_of_writable opens) appended with ⟨bytes, puts⟩
  exact ⟨location, bytes, opens, puts⟩

theorem Container.pack_keepsToOutput : Packer.KeepsToOutput Container.pack := by
  intro files names directory output
  rw [Container.pack]
  split
  · exact .inl rfl
  · dsimp only
    split
    · exact .inl rfl
    · split
      · exact .inl rfl
      · rename_i location opens
        rcases appendBlobs_puts (ne_nil_of_writable opens) rfl with ⟨bytes, puts⟩
        exact .inr ⟨location, bytes, opens, puts⟩

theorem Archive.createWith_keepsToOutput (encode : List Archive.Entry → Bytes) :
    Archiver.KeepsToOutput (Archive.createWith encode) := by
  intro files directory output
  rw [Archive.createWith]
  split
  · exact .inl rfl
  · rename_i location opens
    split
    · exact .inr ⟨location, _, opens, rfl⟩
    · exact .inr ⟨location, _, opens, rfl⟩

namespace Package

theorem appendParts_puts {files : FileTree} {output : Path} {location : Location}
    (below : location ≠ []) (parts : List Path) (done : Bytes) :
    ∃ bytes, (appendParts (files.put location (.file done)) output location parts).1 =
      files.put location (.file bytes) := by
  induction parts generalizing done with
  | nil => exact ⟨done, rfl⟩
  | cons part rest induction =>
      rw [appendParts]
      split
      · exact induction done
      · rename_i content _
        rw [append_put below]
        exact induction (done ++ content)
      · exact ⟨done, rfl⟩

theorem concatenate_writesAt (files : FileTree) (output : Path) (parts : List Path) :
    WritesAt output files (concatenate files output parts).1 := by
  rw [concatenate]
  split
  · exact .inl rfl
  · rename_i location opens
    rcases appendParts_puts (ne_nil_of_writable opens) parts [] with ⟨bytes, puts⟩
    exact .inr ⟨location, bytes, opens, puts⟩

end Package

theorem FileTree.WritesAt.steps {directories : List Path} {directory : Path} {name : String}
    {before after : FileTree} (writes : WritesAt (directory.child name) before after)
    (wellNamed : before.WellNamed) (member : directory ∈ directories) (isName : IsName name) :
    Steps directories before after := by
  rcases writes with rfl | ⟨location, content, opens, rfl⟩
  · exact .refl
  · exact .single (step_put wellNamed member isName opens content)

end GameExport
