import GameExport.Project.Storage
import GameExport.Proofs.FileTree.Writing
import GameExport.Proofs.Project.Document

/-! # Reading back a saved project

Main statement: a project that has been saved is loaded from its file as the same project, and
saving that again leaves the file as it is. This takes a document that nests no deeper than the
reader goes, and no floating point in what the editor keeps.
-/

namespace GameExport

open Json

/-! ## Documents that are read back -/

theorem EditorData.decode_source {kept : EditorData} (exact : whole (.object kept.val) = true)
    {room : Nat} (shallow : depth (.object kept.val) ≤ room) :
    decode room (source (.object kept.val)) = some kept := by
  have read := value?_source exact shallow
  rw [sort_of_sorted _ kept.property, source] at read
  rw [source, decode]
  split
  · rename_i values isRead
    obtain rfl : values = kept.val := Json.object.inj (Option.some.inj (isRead.symm.trans read))
    rfl
  · rename_i unread
    exact absurd read (unread _)

theorem EditorData.depth_of_field {editor : Option EditorData} {kept : EditorData} {room : Nat}
    (shallow : ∀ entry ∈ field editor, depth entry.2 ≤ room) (member : kept ∈ editor) :
    depth (.object kept.val) ≤ room := by
  obtain rfl : editor = some kept := member
  exact shallow ("editor", _) List.mem_cons_self

theorem Scene.decode_toJson {scene : Scene} (room : Nat)
    (exact : ∀ kept ∈ scene.editor, whole (.object kept.val) = true)
    (shallow : depth scene.toJson ≤ room + 4) :
    decode (room + 4) (source scene.toJson) = some scene := by
  have inside := (depth_object_le _ _).mp shallow
  rw [List.forall_mem_append] at inside
  simp only [List.forall_mem_cons] at inside
  obtain ⟨⟨-, -, events, -⟩, editor⟩ := inside
  refine decode_source (Event.list_decode_source events) fun kept member => ?_
  exact EditorData.decode_source (exact kept member) (EditorData.depth_of_field editor member)

theorem ExternalEvents.decode_source {sheet : ExternalEvents} {room : Nat}
    (shallow : depth sheet.toJson ≤ room) :
    decode room (source sheet.toJson) = some sheet := by
  obtain ⟨room, rfl, inside⟩ := exists_room_of_object shallow
  simp only [List.forall_mem_cons] at inside
  have events := Event.list_decode_source inside.2.2.1
  rw [toJson, decode, record?_source []]
  · simp [fieldOr, events]
  · rfl
  · decide

namespace Project

theorem ofText?_text {project : Project} (exact : project.isWhole = true)
    (shallow : depth project.toJson ≤ nestingLimit) (file : Path) :
    ofText? file project.text = some { project with file := file } := by
  have inside := (depth_object_le _ 126).mp shallow
  rw [List.forall_mem_append] at inside
  simp only [List.forall_mem_cons] at inside
  obtain ⟨⟨-, scenesInside, sheetsInside, -⟩, editor⟩ := inside
  have scenes : Decoder.list Scene.decode 126
      (source (.array (project.scenes.map Scene.toJson))) = some project.scenes := by
    refine Decoder.list_source fun scene among => ?_
    exact Scene.decode_toJson 121 (whole_of_scene exact among)
      ((depth_array_le _ 125).mp scenesInside _ (List.mem_map_of_mem among))
  have sheets : Decoder.list ExternalEvents.decode 126
      (source (.array (project.externalEvents.map ExternalEvents.toJson))) =
        some project.externalEvents := by
    refine Decoder.list_source fun sheet among => ?_
    exact ExternalEvents.decode_source
      ((depth_array_le _ 125).mp sheetsInside _ (List.mem_map_of_mem among))
  rw [ofText?, Decoder.run?, text, read?_prettyText (whole_toJson exact)]
  refine decode_source file scenes sheets fun kept member => ?_
  exact EditorData.decode_source (whole_of_editor exact kept member)
    (EditorData.depth_of_field editor member)

/-! ## Files -/

/-- What holds of a project that has been saved to a path, and of the files after that. -/
structure IsSaved (project : Project) (before after : FileTree) (path : Path) : Prop where
  saved : project.save before path = .ok after
  content : after.read path = .ok (Bytes.ofText project.text)
  elsewhere : ∃ location, FileTree.DifferAt location before after
  loaded : load after path = .ok { project with file := path }
  /-- What has been loaded is written as the same bytes again, here and anywhere else. -/
  again : Project.save { project with file := path } after path = .ok after
  same : Project.text { project with file := path } = project.text

/-- A project is saved and loaded again unless its file cannot be written. It may hold anything
that is not floating point and nests no deeper than the reader goes. -/
theorem save_load (project : Project) {files : FileTree} (rooted : files.Rooted) (path : Path)
    (exact : project.isWhole = true) (shallow : depth project.toJson ≤ nestingLimit) :
    (∃ cause, files.writable path = .error cause ∧
      project.save files path = .error (.write path cause)) ∨
    ∃ after, (∃ location, files.writable path = .ok location) ∧
      project.IsSaved files after path := by
  cases writable : files.writable path with
  | error cause =>
      refine .inl ⟨cause, rfl, ?_⟩
      rw [save, FileTree.write, writable]
      rfl
  | ok location =>
      have leaf := ((FileTree.writable_eq_ok_iff rooted).mp writable).2
      have read := FileTree.read_put rooted writable (Bytes.ofText project.text)
      refine .inr ⟨files.put location (.file (Bytes.ofText project.text)), ⟨location, rfl⟩, ?_⟩
      constructor
      · rw [save, FileTree.write, writable]
        rfl
      · exact read
      · exact ⟨location, leaf.differAt_put _⟩
      · rw [load, FileTree.readText, read]
        simp only [Bind.bind, Except.bind, Bytes.text?_ofText, ofText?_text exact shallow]
      · have writable := FileTree.writable_put rooted writable (Bytes.ofText project.text)
        rw [save, FileTree.write, writable]
        exact congrArg Except.ok (FileTree.put_put files location _ _)
      · rfl

def orchardGame : Project where
  name := "Orchard \"α\"\n"
  file := ⟨"/old/orchard.json"⟩
  scenes := [{
    name := "Trees"
    objects := [⟨"Apple", "Sprite", ["apple.png", ""]⟩]
    events :=
      [.standard [⟨"Play", [.value "1", .file "fall.wav"]⟩, ⟨"Stop", []⟩]
        [.link "Common", .code "x++;" ["physics"] [.comment "\x00"]], .comment ""]
    profilerEnabled := true
    editor := some ⟨[("grid", .array [.number (.natural 32), .null]),
      ("zoom", .object [("level", .number (.negative 4)), ("on", .bool true)])], by decide⟩ }]
  externalEvents := [⟨"Common", "Trees", [.code "" [] []]⟩]
  sourceFiles := [⟨"physics", "physics.cpp", "C++"⟩]
  resources := [⟨"Font", "font", "", false⟩]
  objects := []
  extensions := ["Particles"]
  windowsExecutable := ""
  linuxExecutable := "orchard"
  macExecutable := ""
  usesExternalSources := true
  editor := some ⟨[], by decide⟩

def orchardFiles : FileTree where
  nodes := [(["orchard"], .directory), (["orchard", "game.json"], .file [1, 2, 3]),
    (["latest.json"], .link ⟨"orchard/game.json"⟩)]
  start := []

theorem save_load_orchardGame :
    ∃ after, orchardGame.IsSaved orchardFiles after ⟨"latest.json"⟩ := by
  have writable : orchardFiles.writable ⟨"latest.json"⟩ = .ok ["orchard", "game.json"] :=
    eq_ok_of_toOption (by decide +kernel)
  have rooted : orchardFiles.Rooted := by decide +kernel
  rcases save_load orchardGame rooted ⟨"latest.json"⟩ (by decide) (by decide) with
    ⟨cause, refused, _⟩ | ⟨after, _, isSaved⟩
  · rw [writable] at refused
    cases refused
  · exact ⟨after, isSaved⟩

end Project

end GameExport
