import GameExport.Proofs.Export.Copying
import GameExport.Proofs.Export.Descriptor

/-! # What packing the working directory leaves

The descriptor is written next to the resources, encrypted and removed, then all files are packed
and removed. Main statement: what is left of a working directory with given files, and what the
container there was made from.
-/

namespace GameExport

open ExportM FileTree

def described (project : Project) (contents : String → Option Bytes) : String → Option Bytes :=
  Function.update
    (Function.update
      (Function.update contents plainDescriptor (some (Bytes.ofText project.strip.text)))
      encryptedDescriptor (some project.shipped))
    plainDescriptor none

theorem described_encrypted (project : Project) (contents : String → Option Bytes) :
    described project contents encryptedDescriptor = some project.shipped := by
  rw [described, Function.update_of_ne (by decide), Function.update_self]

theorem described_plain (project : Project) (contents : String → Option Bytes) :
    described project contents plainDescriptor = none :=
  Function.update_self ..

theorem described_of_ne (project : Project) (contents : String → Option Bytes) {name : String}
    (notPlain : name ≠ plainDescriptor) (notEncrypted : name ≠ encryptedDescriptor) :
    described project contents name = contents name := by
  rw [described, Function.update_of_ne notPlain, Function.update_of_ne notEncrypted,
    Function.update_of_ne notPlain]

theorem isName_plainDescriptor : IsName plainDescriptor :=
  ⟨by decide, by decide, by decide, by decide⟩

theorem isName_encryptedDescriptor : IsName encryptedDescriptor :=
  ⟨by decide, by decide, by decide, by decide⟩

theorem isName_containerName : IsName containerName := ⟨by decide, by decide, by decide, by decide⟩

/-! ## The descriptor -/

theorem write_of_save {project : Project} {files after : FileTree} {path : Path}
    (saved : project.save files path = .ok after) :
    files.write path (Bytes.ofText project.text) = .ok after := by
  rw [Project.save] at saved
  cases written : files.write path (Bytes.ofText project.text) with
  | error cause =>
      rw [written] at saved
      cases saved
  | ok tree =>
      rw [written] at saved
      cases saved
      rfl

theorem write_of_encryptFile {files after : FileTree} {input output : Path}
    (encrypted : Cipher.encryptFile files input output = .ok after) :
    ∃ plain, files.read input = .ok plain ∧
      files.write output (Cipher.encrypt plain) = .ok after := by
  rw [Cipher.encryptFile] at encrypted
  cases reads : files.read input with
  | error cause =>
      rw [reads] at encrypted
      cases encrypted
  | ok plain =>
      cases writes : files.write output (Cipher.encrypt plain) with
      | error cause =>
          simp only [reads, writes] at encrypted
          cases encrypted
      | ok tree =>
          simp only [reads, writes] at encrypted
          cases encrypted
          exact ⟨plain, rfl, writes⟩

section Descriptor

variable {directory : Path} {contents : String → Option Bytes} {files after : FileTree}
  {project : Project}

theorem flat_of_save (holding : Holding directory contents files)
    (saved : project.strip.save files (directory.child plainDescriptor) = .ok after) :
    ∃ here, FlatDirectory directory here
      (Function.update contents plainDescriptor (some (Bytes.ofText project.strip.text)))
      after := by
  have written := write_of_save saved
  rcases writable_of_write written with ⟨location, writable, _⟩
  rcases holding.flat isName_plainDescriptor writable with ⟨here, flat⟩
  rw [flat.write_eq isName_plainDescriptor written]
  exact ⟨here, flat.put isName_plainDescriptor _⟩

theorem flat_of_encryptFile {here : Location} {plain : Bytes}
    (flat : FlatDirectory directory here contents files)
    (held : contents plainDescriptor = some plain)
    (encrypted : Cipher.encryptFile files (directory.child plainDescriptor)
      (directory.child encryptedDescriptor) = .ok after) :
    FlatDirectory directory here
      (Function.update contents encryptedDescriptor (some (Cipher.encrypt plain))) after := by
  rcases write_of_encryptFile encrypted with ⟨content, reads, written⟩
  obtain rfl : content = plain :=
    Option.some.inj ((flat.read_eq isName_plainDescriptor reads).symm.trans held)
  rw [flat.write_eq isName_encryptedDescriptor written]
  exact flat.put isName_encryptedDescriptor _

end Descriptor

variable {tool : ExportTool} {request : ExportRequest}

theorem meets_writeDescriptor (quiet : request.IsQuiet) {start : ExportState}
    {known : (String → Option Bytes) → Prop}
    (clean : Clean
      (fun files => ∃ contents, known contents ∧ Holding tool.workingDirectory contents files)
      start) :
    Meets (fun state => state = start) (writeDescriptor tool request)
      (fun _ => Clean fun files => ∃ contents, known contents ∧ ∃ here,
        FlatDirectory tool.workingDirectory here (described start.project contents) files)
      fun _ _ => True := by
  have said : Meets (fun state => state = start)
      (say request copyingMessage (some "Step 1 out of 3"))
      (fun _ state => state.project = start.project ∧ Clean
        (fun files => ∃ contents, known contents ∧ Holding tool.workingDirectory contents files)
        state)
      fun _ _ => True := by
    intro state same
    subst same
    exact ⟨rfl, maintains_say quiet _ _ state clean⟩
  apply Meets.bind said
  intro _
  apply meets_get_bind
  intro told holds
  rcases holds with ⟨same, clean⟩
  dsimp only
  rw [same]
  apply Meets.start _ clean
  -- what the files are after each change, in terms of what they were
  let holds (change : (String → Option Bytes) → String → Option Bytes) (files : FileTree) : Prop :=
    ∃ contents, known contents ∧ ∃ here,
      FlatDirectory tool.workingDirectory here (change contents) files
  let written (contents : String → Option Bytes) : String → Option Bytes :=
    Function.update contents plainDescriptor (some (Bytes.ofText start.project.strip.text))
  let encrypted (contents : String → Option Bytes) : String → Option Bytes :=
    Function.update (written contents) encryptedDescriptor (some start.project.shipped)
  have saves : ∀ files after,
      (∃ contents, known contents ∧ Holding tool.workingDirectory contents files) →
      start.project.strip.save files (tool.workingDirectory.child plainDescriptor) = .ok after →
      holds written after := by
    rintro files after ⟨contents, isKnown, holding⟩ saved
    exact ⟨contents, isKnown, flat_of_save holding saved⟩
  have encrypts : ∀ files after, holds written files →
      Cipher.encryptFile files (tool.workingDirectory.child plainDescriptor)
        (tool.workingDirectory.child encryptedDescriptor) = .ok after →
      holds encrypted after := by
    rintro files after ⟨contents, isKnown, here, flat⟩ changed
    exact ⟨contents, isKnown, here, flat_of_encryptFile flat (Function.update_self ..) changed⟩
  have removes : ∀ files after, holds encrypted files →
      files.removeFile (tool.workingDirectory.child plainDescriptor) = .ok after →
      holds (described start.project) after := by
    rintro files after ⟨contents, isKnown, here, flat⟩ removed
    exact ⟨contents, isKnown, here, flat.removeFile isName_plainDescriptor removed⟩
  apply Meets.bind (meets_attempt saves)
  intro _
  apply Meets.bind (maintains_progress quiet _).meets
  intro _
  apply Meets.bind (maintains_say quiet _ _).meets
  intro _
  apply Meets.bind (meets_attempt encrypts)
  intro _
  apply Meets.bind (meets_attempt removes)
  intro _
  exact (maintains_progress quiet _).meets

/-! ## The container -/

def without (names : List String) (contents : String → Option Bytes) : String → Option Bytes :=
  fun name => if name ∈ names then none else contents name

theorem without_concat (names : List String) (name : String)
    (contents : String → Option Bytes) :
    without (names ++ [name]) contents = Function.update (without names contents) name none := by
  funext other
  by_cases same : other = name
  · rw [same, Function.update_self]
    simp [without]
  · rw [Function.update_of_ne same]
    simp [without, same]

/-- A directory whose files have been packed, and of which some have been removed since. `bytes` is
what was written. -/
structure Packed (directory : Path) (here : Location) (contents : String → Option Bytes)
    (names : List String) (bytes : Bytes) (removed : List String) (after : FileTree) : Prop where
  distinct : names.Nodup
  listed : ∀ name, name ∈ names ↔ ∃ content, contents name = some content
  flat : FlatDirectory directory here
    (without removed (Function.update contents containerName (some bytes))) after
  opens : after.place .opening (directory.child containerName) =
    .ok ⟨here ++ [containerName], false⟩
  encodes : containerName ∉ names →
    bytes = Container.encode ⟨Container.entriesOf contents names⟩ ∧
      (Container.manifestBytes
        (Container.sizes ⟨Container.entriesOf contents names⟩)).length < UInt32.size

section Packing

variable {directory : Path} {here : Location} {contents : String → Option Bytes}
  {names removed : List String} {bytes : Bytes} {files after : FileTree}

theorem packed_of_pack (flat : FlatDirectory directory here contents files)
    (areNames : ∀ name content, contents name = some content → IsName name)
    (listed : Package.listFiles files directory = .ok names)
    (packed : Container.pack files names directory (directory.child containerName) =
      (after, .ok ())) :
    ∃ bytes, Packed directory here contents names bytes [] after := by
  rcases flat.listFiles_eq listed with ⟨distinct, listed⟩
  have isNames : ∀ name ∈ names, IsName name := by
    intro name member
    rcases (listed name).mp member with ⟨content, held⟩
    exact areNames name content held
  rcases flat.pack_puts isNames isName_containerName packed with ⟨bytes, rfl, opens, encodes⟩
  have leaf := flat.leaf containerName
  refine ⟨bytes, distinct, listed, ?_, place_differAt (leaf.differAt_put bytes) opens, encodes⟩
  have nothing : without [] (Function.update contents containerName (some bytes)) =
      Function.update contents containerName (some bytes) := by
    funext name
    simp [without]
  rw [nothing]
  exact flat.put isName_containerName bytes

theorem Packed.step (packed : Packed directory here contents names bytes removed files)
    {name : String} (isName : IsName name)
    (removes : files.removeFile (directory.child name) = .ok after) :
    Packed directory here contents names bytes (removed ++ [name]) after where
  distinct := packed.distinct
  listed := packed.listed
  flat := by
    rw [without_concat]
    exact packed.flat.removeFile isName removes
  opens := by
    rw [packed.flat.removeFile_eq isName removes]
    exact place_differAt (packed.flat.leaf name).differAt_erase packed.opens
  encodes := packed.encodes

end Packing

/-- Packing leaves the container alone in the working directory, unless it was removed with what
it was made from. -/
theorem meets_packWorkingFiles_packed (packer : tool.pack = Container.pack)
    {known : (String → Option Bytes) → Prop}
    (areNames : ∀ contents, known contents →
      ∀ name content, contents name = some content → IsName name) :
    Meets
      (Clean fun files => ∃ contents, known contents ∧ ∃ here,
        FlatDirectory tool.workingDirectory here contents files)
      (packWorkingFiles tool request)
      (fun _ => Clean fun files => ∃ contents, known contents ∧ ∃ here names bytes,
        Packed tool.workingDirectory here contents names bytes names files)
      fun _ _ => True := by
  unfold packWorkingFiles
  rw [packer]
  apply meets_get_bind
  intro start clean
  split
  · exact .throw fun _ _ => trivial
  · rename_i names listed
    -- The invariant of the loop that removes what has been packed, from `[]` up to all names.
    let holds (removed : List String) (files : FileTree) : Prop :=
      ∃ contents, known contents ∧ ∃ here bytes,
        Packed tool.workingDirectory here contents names bytes removed files
    have packs : Meets (fun state => state = start)
        (changingFiles fun files => Container.pack files names tool.workingDirectory
          (tool.workingDirectory.child containerName))
        (fun result state => result = .ok () → Clean (holds []) state) fun _ _ => True := by
      intro state same
      subst same
      intro succeeded spotless
      rcases clean spotless with ⟨contents, isKnown, here, flat⟩
      have packed : Container.pack state.files names tool.workingDirectory
          (tool.workingDirectory.child containerName) = (_, .ok ()) := Prod.ext rfl succeeded
      rcases packed_of_pack flat (areNames contents isKnown) listed packed with ⟨bytes, packed⟩
      exact ⟨contents, isKnown, here, bytes, packed⟩
    apply Meets.bind packs
    intro result
    cases result with
    | error cause => exact .throw fun _ _ => trivial
    | ok =>
        have each : ∀ done name rest, names = done ++ name :: rest →
            Meets (Clean (holds done)) (removeWorkingFile tool request name)
              (fun _ => Clean (holds (done ++ [name]))) fun _ _ => True := by
          intro done name rest split
          have removes : ∀ files after, holds done files →
              files.removeFile (tool.workingDirectory.child name) = .ok after →
              holds (done ++ [name]) after := by
            rintro files after ⟨contents, isKnown, here, bytes, packed⟩ removed
            have member : name ∈ names := split ▸ by simp
            rcases (packed.listed name).mp member with ⟨content, held⟩
            exact ⟨contents, isKnown, here, bytes,
              packed.step (areNames contents isKnown name content held) removed⟩
          unfold removeWorkingFile
          exact meets_attempt removes
        apply (Meets.forM each).weaken
        · exact fun _ clean => clean rfl
        · intro _ state clean spotless
          rcases clean spotless with ⟨contents, isKnown, here, bytes, packed⟩
          exact ⟨contents, isKnown, here, names, bytes, packed⟩
        · exact fun _ _ => id

end GameExport
