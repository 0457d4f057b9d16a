import GameExport.Project.Document
import GameExport.Project.Stripping
import GameExport.Proofs.Project.EventTrees

/-! # Reading back a shipped project

Main statement: the document of a stripped project is read back as that project. What a record
holds is taken from its slots, so the order of its fields is said once, in its list of names.
-/

namespace GameExport

open Json

theorem GameObject.decode_source (object : GameObject) (room : Nat) :
    decode (room + 2) (source object.toJson) = some object := by
  rw [toJson, decode, record?_source []]
  · simp [fieldOr]
  · rfl
  · decide

theorem SourceFile.decode_source (file : SourceFile) (room : Nat) :
    decode (room + 1) (source file.toJson) = some file := by
  rw [toJson, decode, record?_source []]
  · simp [fieldOr]
  · rfl
  · decide

theorem Resource.decode_source (resource : Resource) (room : Nat) :
    decode (room + 1) (source resource.toJson) = some resource := by
  rw [toJson, decode, record?_source []]
  · simp [fieldOr]
  · rfl
  · decide

/-! ## What may have an editor's data -/

theorem EditorData.nullable_decode {room : Nat} {kept : EditorData}
    (read : EditorData.decode room (source (.object kept.val)) = some kept) :
    Decoder.nullable EditorData.decode room (source (.object kept.val)) = some (some kept) := by
  rw [source] at read ⊢
  rw [Decoder.nullable, read, Option.map_some]
  intro isNull
  exact Source.noConfusion isNull

theorem Scene.decode_source {scene : Scene} {room : Nat}
    (events : Decoder.list Event.decode (room + 3)
      (source (.array (Event.listToJson scene.events))) = some scene.events)
    (editor : ∀ kept ∈ scene.editor,
      EditorData.decode (room + 3) (source (.object kept.val)) = some kept) :
    decode (room + 4) (source scene.toJson) = some scene := by
  have objects : Decoder.list GameObject.decode (room + 3)
      (source (.array (scene.objects.map GameObject.toJson))) = some scene.objects :=
    Decoder.list_source fun object _ => GameObject.decode_source object room
  obtain ⟨name, objectList, eventList, profilerEnabled, editorData⟩ := scene
  cases editorData with
  | none =>
      rw [toJson, decode, record?_source ["editor"]]
      · simp [fieldOr, EditorData.field, objects, events]
      · rfl
      · decide
  | some kept =>
      have kept := EditorData.nullable_decode (editor kept rfl)
      rw [toJson, decode, record?_source []]
      · simp [fieldOr, EditorData.field, objects, events, kept]
      · rfl
      · decide

theorem Scene.decode_strip (scene : Scene) (room : Nat) :
    decode (room + 4) (source scene.strip.toJson) = some scene.strip :=
  decode_source rfl (by simp [strip])

theorem Project.decode_source {project : Project} {room : Nat} (file : Path)
    (scenes : Decoder.list Scene.decode (room + 3)
      (source (.array (project.scenes.map Scene.toJson))) = some project.scenes)
    (sheets : Decoder.list ExternalEvents.decode (room + 3)
      (source (.array (project.externalEvents.map ExternalEvents.toJson))) =
        some project.externalEvents)
    (editor : ∀ kept ∈ project.editor,
      EditorData.decode (room + 3) (source (.object kept.val)) = some kept) :
    decode file (room + 4) (source project.toJson) = some { project with file := file } := by
  have sourceFiles : Decoder.list SourceFile.decode (room + 3)
      (source (.array (project.sourceFiles.map SourceFile.toJson))) = some project.sourceFiles :=
    Decoder.list_source fun source _ => SourceFile.decode_source source (room + 1)
  have resources : Decoder.list Resource.decode (room + 3)
      (source (.array (project.resources.map Resource.toJson))) = some project.resources :=
    Decoder.list_source fun resource _ => Resource.decode_source resource (room + 1)
  have objects : Decoder.list GameObject.decode (room + 3)
      (source (.array (project.objects.map GameObject.toJson))) = some project.objects :=
    Decoder.list_source fun object _ => GameObject.decode_source object room
  cases editorData : project.editor with
  | none =>
      rw [toJson, decode, record?_source ["editor"]]
      · simp [fieldOr, editorData, EditorData.field, scenes, sheets, sourceFiles, resources,
          objects]
      · rw [editorData]
        rfl
      · decide
  | some kept =>
      have kept := EditorData.nullable_decode (editor kept editorData)
      rw [toJson, decode, record?_source []]
      · simp [fieldOr, editorData, EditorData.field, scenes, sheets, sourceFiles, resources,
          objects, kept]
      · rw [editorData]
        rfl
      · decide

/-! ## Documents without floating point -/

theorem whole_object_append {front back : List (String × Json)}
    (exactFront : whole (.object front) = true) (exactBack : whole (.object back) = true) :
    whole (.object (front ++ back)) = true := by
  rw [whole] at exactFront exactBack ⊢
  induction front with
  | nil => exact exactBack
  | cons field rest induction =>
      rw [wholeFields, Bool.and_eq_true] at exactFront
      rw [List.cons_append, wholeFields, exactFront.1, induction exactFront.2]
      rfl

theorem EditorData.whole_field {editor : Option EditorData}
    (exact : ∀ kept ∈ editor, whole (.object kept.val) = true) :
    whole (.object (field editor)) = true := by
  cases editor with
  | none => rfl
  | some kept =>
      rw [field, whole, wholeFields, exact kept rfl]
      rfl

theorem GameObject.wholeItems_toJson (objects : List GameObject) :
    wholeItems (objects.map toJson) = true :=
  wholeItems_map fun object _ => by simp [toJson, whole, wholeFields, whole_strings]

theorem Scene.whole_toJson {scene : Scene}
    (exact : ∀ kept ∈ scene.editor, whole (.object kept.val) = true) :
    whole scene.toJson = true := by
  refine whole_object_append ?_ (EditorData.whole_field exact)
  simp [whole, wholeFields, GameObject.wholeItems_toJson, Event.whole_listToJson]

theorem ExternalEvents.whole_toJson (sheet : ExternalEvents) : whole sheet.toJson = true := by
  simp [toJson, whole, wholeFields, Event.whole_listToJson]

def Project.editors (project : Project) : List EditorData :=
  project.editor.toList ++ project.scenes.filterMap (·.editor)

def Project.isWhole (project : Project) : Bool :=
  project.editors.all fun kept => whole (.object kept.val)

namespace Project

theorem whole_of_editor {project : Project} (exact : project.isWhole = true) :
    ∀ kept ∈ project.editor, whole (.object kept.val) = true := by
  intro kept member
  exact List.all_eq_true.mp exact kept
    (List.mem_append_left _ (Option.mem_toList.mpr member))

theorem whole_of_scene {project : Project} (exact : project.isWhole = true) {scene : Scene}
    (among : scene ∈ project.scenes) : ∀ kept ∈ scene.editor, whole (.object kept.val) = true := by
  intro kept member
  exact List.all_eq_true.mp exact kept
    (List.mem_append_right _ (List.mem_filterMap.mpr ⟨scene, among, member⟩))

theorem whole_toJson {project : Project} (exact : project.isWhole = true) :
    whole project.toJson = true := by
  have scenes := wholeItems_map fun scene (among : scene ∈ project.scenes) =>
    Scene.whole_toJson (whole_of_scene exact among)
  have sheets := wholeItems_map fun sheet (_ : sheet ∈ project.externalEvents) =>
    sheet.whole_toJson
  have sources : wholeItems (project.sourceFiles.map SourceFile.toJson) = true :=
    wholeItems_map fun source _ => by simp [SourceFile.toJson, whole, wholeFields]
  have resources : wholeItems (project.resources.map Resource.toJson) = true :=
    wholeItems_map fun resource _ => by simp [Resource.toJson, whole, wholeFields]
  refine whole_object_append ?_ (EditorData.whole_field (whole_of_editor exact))
  simp [whole, wholeFields, whole_strings, scenes, sheets, sources, resources,
    GameObject.wholeItems_toJson]

end Project

/-! ## A stripped project -/

theorem Project.whole_strip (project : Project) : whole project.strip.toJson = true := by
  have nothingKept : project.strip.editors = [] := by
    simp [editors, strip, Scene.strip]
  exact whole_toJson (by rw [isWhole, nothingKept]; rfl)

theorem Project.ofText?_strip (project : Project) (file : Path) :
    ofText? file project.strip.text = some { project.strip with file := file } := by
  have scenes : Decoder.list Scene.decode 126
      (source (.array (project.strip.scenes.map Scene.toJson))) = some project.strip.scenes := by
    refine Decoder.list_source fun scene member => ?_
    obtain ⟨original, _, rfl⟩ := List.mem_map.mp member
    exact Scene.decode_strip original 121
  rw [ofText?, Decoder.run?, text, read?_prettyText project.whole_strip]
  exact decode_source file scenes rfl (by simp [strip])

end GameExport
