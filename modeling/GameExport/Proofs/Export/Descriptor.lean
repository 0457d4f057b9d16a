import GameExport.Proofs.Cipher.Inverse
import GameExport.Proofs.Container.RoundTrip
import GameExport.Proofs.Project.Document

/-! # The descriptor that a game is shipped with

Main statement: what the runtime finds in a container, once decrypted and stripped of its padding,
is the document of the stripped project, and it says nothing that stripping leaves out.
-/

namespace GameExport

open Json

namespace Project

def shipped (project : Project) : Bytes := Cipher.encrypt (Bytes.ofText project.strip.text)

/-! ## What is not shipped -/

/-- Two projects that may differ in the events and profiler flags of scenes, in sheets of external
events, in what the editor keeps and in where they are kept, but in nothing else. -/
structure SameGame (left right : Project) : Prop where
  name : left.name = right.name
  scenes : left.scenes.map (fun scene => (scene.name, scene.objects)) =
    right.scenes.map fun scene => (scene.name, scene.objects)
  sourceFiles : left.sourceFiles = right.sourceFiles
  resources : left.resources = right.resources
  objects : left.objects = right.objects
  extensions : left.extensions = right.extensions
  windowsExecutable : left.windowsExecutable = right.windowsExecutable
  linuxExecutable : left.linuxExecutable = right.linuxExecutable
  macExecutable : left.macExecutable = right.macExecutable
  usesExternalSources : left.usesExternalSources = right.usesExternalSources

theorem scenes_strip (scenes : List Scene) :
    scenes.map Scene.strip =
      (scenes.map fun scene => (scene.name, scene.objects)).map fun parts =>
        { name := parts.1, objects := parts.2, events := [], profilerEnabled := false,
          editor := none } := by
  rw [List.map_map]
  rfl

theorem SameGame.toJson_strip {left right : Project} (same : left.SameGame right) :
    left.strip.toJson = right.strip.toJson := by
  have scenes : left.scenes.map Scene.strip = right.scenes.map Scene.strip := by
    rw [scenes_strip, scenes_strip, same.scenes]
  simp only [strip, toJson, scenes, same.name, same.sourceFiles, same.resources, same.objects,
    same.extensions, same.windowsExecutable, same.linuxExecutable, same.macExecutable,
    same.usesExternalSources]

theorem SameGame.shipped_eq {left right : Project} (same : left.SameGame right) :
    left.shipped = right.shipped := by
  rw [shipped, shipped, text, text, same.toJson_strip]

/-! ## What is read back -/

theorem ofText_append (front : List Char) :
    Bytes.ofText (String.ofList (front ++ ['\x7d'])) =
      Bytes.ofText (String.ofList front) ++ [0x7D] := by
  rw [String.ofList_append, Bytes.ofText, String.toUTF8, String.toByteArray_append,
    ByteArray.data_append, Array.toList_append]
  rfl

theorem ofText_text (project : Project) :
    ∃ front, Bytes.ofText project.text = front ++ [0x7D] :=
  ⟨_, ofText_append _⟩

theorem stripPadding_text (project : Project) (zeros : Nat) :
    Cipher.stripPadding (Bytes.ofText project.text ++ List.replicate zeros 0) =
      Bytes.ofText project.text := by
  obtain ⟨front, shape⟩ := project.ofText_text
  rw [Cipher.stripPadding_append, shape]
  exact Cipher.stripPadding_of_last (by decide) front

/-- A shipped descriptor is found in the container, and it decodes to the stripped project. What
stripping leaves out has no effect on it. -/
theorem shipped_decodes (project : Project) {files : FileTree} (rooted : files.Rooted)
    {directory output : Path} {location : Location}
    (writable : files.writable output = .ok location) {entries : List Container.Entry}
    (distinct : (entries.map (·.name)).Nodup) (packed : ⟨"src", project.shipped⟩ ∈ entries)
    (listed : Container.Listed files directory location entries)
    (countable : Container.Countable (Container.sizes ⟨entries⟩))
    (fits : (Container.manifestBytes (Container.sizes ⟨entries⟩)).length < UInt32.size) :
    ∃ after container blob plain,
      Container.pack files (entries.map (·.name)) directory output = (after, .ok ()) ∧
      Container.load after output = .ok container ∧
      container.read? "src" = some blob ∧
      Cipher.decrypt blob = .ok plain ∧
      Cipher.stripPadding plain = Bytes.ofText project.strip.text ∧
      (Bytes.text? (Cipher.stripPadding plain)).bind (ofText? ⟨""⟩) =
        some { project.strip with file := ⟨""⟩ } ∧
      ∀ other : Project, project.SameGame other → other.shipped = blob := by
  have stripped := stripPadding_text project.strip
    (Cipher.paddingOf (Bytes.ofText project.strip.text).length)
  refine ⟨_, ⟨entries⟩, project.shipped, _, Container.pack_eq rooted writable listed fits,
    Container.load_put rooted writable countable fits, Container.read?_of_mem distinct packed,
    Cipher.decrypt_encrypt _, stripped, ?_, fun other same => same.shipped_eq.symm⟩
  rw [stripped, Bytes.text?_ofText, Option.bind_some, ofText?_strip]

def menuGame : Project where
  name := "Game"
  file := ⟨"game.json"⟩
  scenes := [⟨"Menu", [], [.comment "starts here"], true, none⟩]
  externalEvents := []
  sourceFiles := []
  resources := []
  objects := []
  extensions := []
  windowsExecutable := ""
  linuxExecutable := ""
  macExecutable := ""
  usesExternalSources := false
  editor := none

def menuEntries : List Container.Entry := [⟨"hero.png", [1, 2, 3]⟩, ⟨"src", menuGame.shipped⟩]

def menuFiles : FileTree where
  nodes := menuEntries.map fun entry => ([entry.name], .file entry.blob)
  start := []

theorem sizes_menuEntries : Container.sizes ⟨menuEntries⟩ = [("hero.png", 3), ("src", 400)] := by
  have text : (Bytes.ofText menuGame.strip.text).length = 393 := by decide +kernel
  have descriptor : menuGame.shipped.length = 400 := by
    rw [shipped, Cipher.length_encrypt, text]
    rfl
  rw [menuEntries, Container.sizes, List.map_cons, List.map_cons, descriptor]
  rfl

theorem place_menuFiles {purpose : FileTree.Purpose} {path : Path} {name : String}
    (walkable : FileTree.Walkable path) (relative : path.isAbsolute = false)
    (steps : FileTree.steps path = [".", name]) (closed : FileTree.endsOpen path = false)
    (named : FileTree.Named purpose name [] false) (leaf : menuFiles.LeafAt [name]) :
    menuFiles.place purpose path = .ok ⟨[name], false⟩ := by
  have top := menuFiles.isDirectoryAt_nil
  refine FileTree.place_eq_ok_iff.mpr ⟨walkable, ?_⟩
  rw [steps, closed, FileTree.origin, relative]
  exact .stay top (.toLeaf top named leaf)

/-- The descriptor of a game is decoded from the container that it has been packed into. -/
theorem shipped_decodes_menuGame :
    ∃ after container blob plain,
      Container.pack menuFiles ["hero.png", "src"] ⟨"."⟩ ⟨"./gam.egd"⟩ = (after, .ok ()) ∧
      Container.load after ⟨"./gam.egd"⟩ = .ok container ∧
      container.read? "src" = some blob ∧
      Cipher.decrypt blob = .ok plain ∧
      Cipher.stripPadding plain = Bytes.ofText menuGame.strip.text ∧
      (Bytes.text? (Cipher.stripPadding plain)).bind (ofText? ⟨""⟩) =
        some { menuGame.strip with file := ⟨""⟩ } ∧
      ∀ other : Project, menuGame.SameGame other → other.shipped = blob := by
  have rooted : menuFiles.Rooted := ⟨menuFiles.isDirectoryAt_nil, by
    intro entry member
    rcases List.mem_cons.mp member with rfl | member
    · exact menuFiles.isDirectoryAt_nil
    · obtain rfl := List.mem_singleton.mp member
      exact menuFiles.isDirectoryAt_nil⟩
  have writable : menuFiles.writable ⟨"./gam.egd"⟩ = .ok ["gam.egd"] := by
    have leaf : menuFiles.LeafAt ["gam.egd"] := fun node taken => by cases taken
    refine (FileTree.writable_eq_ok_iff rooted).mpr ⟨?_, leaf⟩
    exact place_menuFiles ⟨by decide, by decide, by decide⟩ rfl rfl rfl
      ⟨by decide, by decide, by decide, by decide⟩ leaf
  have listed : Container.Listed menuFiles ⟨"."⟩ ["gam.egd"] menuEntries := by
    have found {path : Path} {name : String} {blob : Bytes}
        (taken : menuFiles.node? [name] = some (.file blob))
        (arrives : menuFiles.place .target path = .ok ⟨[name], false⟩) :
        menuFiles.find true path = .ok ([name], .file blob) :=
      FileTree.find_eq_ok_iff.mpr ⟨false, arrives, taken, by simp⟩
    intro entry member
    rcases List.mem_cons.mp member with rfl | member
    · refine ⟨["hero.png"], by decide, found rfl (place_menuFiles ⟨by decide, by decide, by decide⟩
        rfl rfl rfl ⟨by decide, by decide, by decide, by decide⟩ ?_)⟩
      exact fun node taken => ⟨_, (Option.some.inj taken).symm⟩
    · obtain rfl := List.mem_singleton.mp member
      refine ⟨["src"], by decide, found rfl (place_menuFiles ⟨by decide, by decide, by decide⟩
        rfl rfl rfl ⟨by decide, by decide, by decide, by decide⟩ ?_)⟩
      exact fun node taken => ⟨_, (Option.some.inj taken).symm⟩
  have countable : Container.Countable (Container.sizes ⟨menuEntries⟩) := by
    rw [sizes_menuEntries]
    intro entry member
    rcases List.mem_cons.mp member with rfl | member
    · decide
    · obtain rfl := List.mem_singleton.mp member
      decide
  have fits : (Container.manifestBytes (Container.sizes ⟨menuEntries⟩)).length < UInt32.size := by
    rw [sizes_menuEntries]
    decide +kernel
  exact shipped_decodes menuGame rooted writable (by decide) (by simp [menuEntries]) listed
    countable fits

end Project

end GameExport
