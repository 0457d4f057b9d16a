import GameExport.Proofs.Generation.Writing

/-! # The files that a project refers to

Resources, objects and the instructions of events refer to files. Main statements: a walk through a
project meets exactly these files; and if every file is renamed and all else is kept, then the
project refers to the new names of what it referred to before.
-/

namespace GameExport

def Instruction.Stands (instruction : Instruction) (events : List Event) : Prop :=
  ∃ instructions subEvents,
    (Event.standard instructions subEvents).Stands events ∧ instruction ∈ instructions

def FileStands (path : String) (events : List Event) : Prop :=
  ∃ instruction : Instruction, instruction.Stands events ∧ .file path ∈ instruction.arguments

/-- A project refers to a file. -/
inductive Project.RefersTo (project : Project) (path : String) : Prop
  | resource {resource : Resource} (member : resource ∈ project.resources)
      (uses : resource.usesFile = true) (same : resource.file = path)
  | sceneObject {scene : Scene} {object : GameObject} (declared : scene ∈ project.scenes)
      (member : object ∈ scene.objects) (needs : path ∈ object.resources)
  | instruction {unit : UnitName} {events : List Event} (declared : project.HasEvents unit events)
      (stands : FileStands path events)
  | globalObject {object : GameObject} (member : object ∈ project.objects)
      (needs : path ∈ object.resources)

section

variable (rename : String → String)

def Argument.mapFile : Argument → Argument
  | .value text => .value text
  | .file path => .file (rename path)

def Instruction.mapFiles (instruction : Instruction) : Instruction :=
  { instruction with arguments := instruction.arguments.map (Argument.mapFile rename) }

mutual
def Event.mapFiles : Event → Event
  | .standard instructions subEvents =>
      .standard (instructions.map (Instruction.mapFiles rename)) (mapFilesIn subEvents)
  | .link target => .link target
  | .code text dependencies subEvents => .code text dependencies (mapFilesIn subEvents)
  | .comment text => .comment text

def mapFilesIn : List Event → List Event
  | [] => []
  | event :: rest => event.mapFiles :: mapFilesIn rest
end

def Resource.mapFile (resource : Resource) : Resource :=
  if resource.usesFile then { resource with file := rename resource.file } else resource

def GameObject.mapFiles (object : GameObject) : GameObject :=
  { object with resources := object.resources.map rename }

def Scene.mapFiles (scene : Scene) : Scene :=
  { scene with
    objects := scene.objects.map (GameObject.mapFiles rename)
    events := mapFilesIn rename scene.events }

def ExternalEvents.mapFiles (sheet : ExternalEvents) : ExternalEvents :=
  { sheet with events := mapFilesIn rename sheet.events }

def Project.mapFiles (project : Project) : Project :=
  { project with
    resources := project.resources.map (Resource.mapFile rename)
    scenes := project.scenes.map (Scene.mapFiles rename)
    externalEvents := project.externalEvents.map (ExternalEvents.mapFiles rename)
    objects := project.objects.map (GameObject.mapFiles rename) }

end

variable {rename : String → String} {path : String}

/-! ## Events -/

theorem mapFilesIn_eq_map (rename : String → String) (events : List Event) :
    mapFilesIn rename events = events.map (Event.mapFiles rename) := by
  induction events with
  | nil => rfl
  | cons event rest induction => rw [mapFilesIn, induction, List.map_cons]

theorem mem_mapFilesIn {event : Event} {events : List Event} :
    event ∈ mapFilesIn rename events ↔ ∃ old ∈ events, old.mapFiles rename = event := by
  rw [mapFilesIn_eq_map, List.mem_map]

theorem Event.subEvents_mapFiles (rename : String → String) (event : Event) :
    (event.mapFiles rename).subEvents = mapFilesIn rename event.subEvents := by
  cases event with
  | standard instructions subEvents => rfl
  | link target => rfl
  | code text dependencies subEvents => rfl
  | comment text => rfl

theorem Event.stands_mapFilesIn {event : Event} {events : List Event} :
    event.Stands (mapFilesIn rename events) ↔
      ∃ old : Event, old.Stands events ∧ old.mapFiles rename = event := by
  constructor
  · intro stands
    generalize isMapped : mapFilesIn rename events = mapped at stands
    induction stands generalizing events with
    | direct member =>
        subst isMapped
        obtain ⟨old, member, same⟩ := mem_mapFilesIn.mp member
        exact ⟨old, .direct member, same⟩
    | inside member below induction =>
        subst isMapped
        obtain ⟨other, isOther, rfl⟩ := mem_mapFilesIn.mp member
        obtain ⟨old, stands, same⟩ := induction (other.subEvents_mapFiles rename).symm
        exact ⟨old, .inside isOther stands, same⟩
  · rintro ⟨old, stands, rfl⟩
    induction stands with
    | direct member => exact .direct (mem_mapFilesIn.mpr ⟨old, member, rfl⟩)
    | @inside events other member below induction =>
        rw [← other.subEvents_mapFiles] at induction
        exact .inside (mem_mapFilesIn.mpr ⟨other, member, rfl⟩) induction

theorem Instruction.stands_mapFilesIn {instruction : Instruction} {events : List Event} :
    instruction.Stands (mapFilesIn rename events) ↔
      ∃ old : Instruction, old.Stands events ∧ old.mapFiles rename = instruction := by
  constructor
  · rintro ⟨instructions, subEvents, stands, member⟩
    obtain ⟨event, eventStands, same⟩ := Event.stands_mapFilesIn.mp stands
    cases event with
    | standard olds below =>
        obtain ⟨rfl, rfl⟩ := Event.standard.inj same
        obtain ⟨old, isOld, same⟩ := List.mem_map.mp member
        exact ⟨old, ⟨olds, below, eventStands, isOld⟩, same⟩
    | link target => cases same
    | code text dependencies below => cases same
    | comment text => cases same
  · rintro ⟨old, ⟨olds, below, stands, member⟩, rfl⟩
    exact ⟨_, _, Event.stands_mapFilesIn.mpr ⟨_, stands, rfl⟩, List.mem_map_of_mem member⟩

theorem Instruction.file_mem_mapFiles {instruction : Instruction} :
    .file path ∈ (instruction.mapFiles rename).arguments ↔
      ∃ old, .file old ∈ instruction.arguments ∧ rename old = path := by
  rw [Instruction.mapFiles, List.mem_map]
  constructor
  · rintro ⟨argument, member, same⟩
    cases argument with
    | value text => cases same
    | file old => exact ⟨old, member, Argument.file.inj same⟩
  · rintro ⟨old, member, rfl⟩
    exact ⟨.file old, member, rfl⟩

theorem fileStands_mapFilesIn {events : List Event} :
    FileStands path (mapFilesIn rename events) ↔
      ∃ old, FileStands old events ∧ rename old = path := by
  constructor
  · rintro ⟨instruction, stands, member⟩
    obtain ⟨before, beforeStands, rfl⟩ := Instruction.stands_mapFilesIn.mp stands
    obtain ⟨old, isArgument, same⟩ := Instruction.file_mem_mapFiles.mp member
    exact ⟨old, ⟨before, beforeStands, isArgument⟩, same⟩
  · rintro ⟨old, ⟨before, stands, member⟩, same⟩
    exact ⟨_, Instruction.stands_mapFilesIn.mpr ⟨before, stands, rfl⟩,
      Instruction.file_mem_mapFiles.mpr ⟨old, member, same⟩⟩

/-! ## Walks meet what stands in events -/

theorem fileStands_cons {first : Event} {rest : List Event} :
    FileStands path (first :: rest) ↔
      (∃ instructions subEvents, first = .standard instructions subEvents ∧
        ∃ instruction ∈ instructions, .file path ∈ instruction.arguments) ∨
      FileStands path first.subEvents ∨ FileStands path rest := by
  simp only [FileStands, Instruction.Stands, Event.stands_cons]
  constructor
  · rintro ⟨instruction, ⟨instructions, subEvents, same | below | later, member⟩, needs⟩
    · exact .inl ⟨instructions, subEvents, same.symm, instruction, member, needs⟩
    · exact .inr (.inl ⟨instruction, ⟨instructions, subEvents, below, member⟩, needs⟩)
    · exact .inr (.inr ⟨instruction, ⟨instructions, subEvents, later, member⟩, needs⟩)
  · rintro (⟨instructions, subEvents, same, instruction, member, needs⟩ |
      ⟨instruction, ⟨instructions, subEvents, below, member⟩, needs⟩ |
      ⟨instruction, ⟨instructions, subEvents, later, member⟩, needs⟩)
    · exact ⟨instruction, ⟨instructions, subEvents, .inl same.symm, member⟩, needs⟩
    · exact ⟨instruction, ⟨instructions, subEvents, .inr (.inl below), member⟩, needs⟩
    · exact ⟨instruction, ⟨instructions, subEvents, .inr (.inr later), member⟩, needs⟩

def Instruction.files (instruction : Instruction) : List String :=
  instruction.arguments.filterMap Argument.file?

theorem Instruction.mem_files {instruction : Instruction} :
    path ∈ instruction.files ↔ .file path ∈ instruction.arguments := by
  rw [files, List.mem_filterMap]
  constructor
  · rintro ⟨argument, member, same⟩
    cases argument with
    | value text => cases same
    | file other => exact Option.some.inj same ▸ member
  · intro member
    exact ⟨_, member, rfl⟩

mutual
private theorem Event.mem_files : ∀ event : Event,
    path ∈ event.files ↔
      (∃ instructions subEvents, event = .standard instructions subEvents ∧
        ∃ instruction ∈ instructions, .file path ∈ instruction.arguments) ∨
      FileStands path event.subEvents
  | .standard instructions subEvents => by
      have split : Event.files (.standard instructions subEvents) =
          instructions.flatMap Instruction.files ++ filesIn subEvents := rfl
      simp [split, Instruction.mem_files, mem_filesIn subEvents, Event.subEvents]
  | .link target => by
      simp [Event.files, Event.subEvents, FileStands, Instruction.Stands, Event.not_stands_nil]
  | .code text dependencies subEvents => by
      simp [Event.files, mem_filesIn subEvents, Event.subEvents]
  | .comment text => by
      simp [Event.files, Event.subEvents, FileStands, Instruction.Stands, Event.not_stands_nil]

theorem mem_filesIn : ∀ events : List Event, path ∈ filesIn events ↔ FileStands path events
  | [] => by simp [filesIn, FileStands, Instruction.Stands, Event.not_stands_nil]
  | event :: rest => by
      rw [filesIn, List.mem_append, Event.mem_files event, mem_filesIn rest, fileStands_cons,
        or_assoc]
end

/-! ## Projects -/

def Resource.files (resource : Resource) : List String :=
  if resource.usesFile then [resource.file] else []

def Scene.files (scene : Scene) : List String :=
  scene.objects.flatMap GameObject.resources ++ filesIn scene.events

def Project.files (project : Project) : List String :=
  project.resources.flatMap Resource.files ++ (project.scenes.flatMap Scene.files ++
    (project.externalEvents.flatMap (fun sheet => filesIn sheet.events) ++
      project.objects.flatMap GameObject.resources))

namespace Project

variable {project : Project}

theorem mem_files : path ∈ project.files ↔ project.RefersTo path := by
  simp only [files, Scene.files, List.mem_append, List.mem_flatMap, mem_filesIn]
  constructor
  · rintro (⟨resource, member, met⟩ | ⟨scene, declared, ⟨object, member, needs⟩ | stands⟩ |
      ⟨sheet, declared, stands⟩ | ⟨object, member, needs⟩)
    · rw [Resource.files] at met
      split at met
      · rename_i uses
        exact .resource member uses (List.mem_singleton.mp met).symm
      · cases met
    · exact .sceneObject declared member needs
    · exact .instruction (.scene declared) stands
    · exact .instruction (.sheet declared) stands
    · exact .globalObject member needs
  · intro refers
    cases refers with
    | @resource resource member uses same =>
        refine .inl ⟨resource, member, ?_⟩
        rw [Resource.files, if_pos uses]
        exact List.mem_singleton.mpr same.symm
    | sceneObject declared member needs =>
        exact .inr (.inl ⟨_, declared, .inl ⟨_, member, needs⟩⟩)
    | instruction declared stands =>
        cases declared with
        | scene declared => exact .inr (.inl ⟨_, declared, .inr stands⟩)
        | sheet declared => exact .inr (.inr (.inl ⟨_, declared, stands⟩))
    | globalObject member needs => exact .inr (.inr (.inr ⟨_, member, needs⟩))

theorem hasEvents_mapFiles {unit : UnitName} {events : List Event} :
    (project.mapFiles rename).HasEvents unit events ↔
      ∃ old, project.HasEvents unit old ∧ mapFilesIn rename old = events := by
  constructor
  · intro declared
    cases declared with
    | scene declared =>
        obtain ⟨old, member, rfl⟩ := List.mem_map.mp declared
        exact ⟨old.events, .scene member, rfl⟩
    | sheet declared =>
        obtain ⟨old, member, rfl⟩ := List.mem_map.mp declared
        exact ⟨old.events, .sheet member, rfl⟩
  · rintro ⟨old, declared, rfl⟩
    cases declared with
    | @scene old declared =>
        have mapped : old.mapFiles rename ∈ (project.mapFiles rename).scenes :=
          List.mem_map_of_mem declared
        exact .scene mapped
    | @sheet old declared =>
        have mapped : old.mapFiles rename ∈ (project.mapFiles rename).externalEvents :=
          List.mem_map_of_mem declared
        exact .sheet mapped

/-- A project refers to the new names of the files that it referred to. -/
theorem refersTo_mapFiles :
    (project.mapFiles rename).RefersTo path ↔
      ∃ old, project.RefersTo old ∧ rename old = path := by
  constructor
  · intro refers
    cases refers with
    | resource member uses same =>
        obtain ⟨old, isOld, rfl⟩ := List.mem_map.mp member
        rw [Resource.mapFile] at uses same
        split at same
        · rename_i usesFile
          exact ⟨old.file, .resource isOld usesFile rfl, same⟩
        · rename_i usesNone
          rw [if_neg usesNone] at uses
          exact absurd uses usesNone
    | sceneObject declared member needs =>
        obtain ⟨scene, isScene, rfl⟩ := List.mem_map.mp declared
        obtain ⟨object, isObject, rfl⟩ := List.mem_map.mp member
        obtain ⟨old, needed, same⟩ := List.mem_map.mp needs
        exact ⟨old, .sceneObject isScene isObject needed, same⟩
    | instruction declared stands =>
        obtain ⟨events, hasEvents, rfl⟩ := hasEvents_mapFiles.mp declared
        obtain ⟨old, oldStands, same⟩ := fileStands_mapFilesIn.mp stands
        exact ⟨old, .instruction hasEvents oldStands, same⟩
    | globalObject member needs =>
        obtain ⟨object, isObject, rfl⟩ := List.mem_map.mp member
        obtain ⟨old, needed, same⟩ := List.mem_map.mp needs
        exact ⟨old, .globalObject isObject needed, same⟩
  · rintro ⟨old, refers, rfl⟩
    cases refers with
    | resource member uses same =>
        refine .resource (List.mem_map_of_mem member) ?_ ?_
        · rw [Resource.mapFile, if_pos uses]
          exact uses
        · rw [Resource.mapFile, if_pos uses, same]
    | sceneObject declared member needs =>
        exact .sceneObject (List.mem_map_of_mem declared) (List.mem_map_of_mem member)
          (List.mem_map_of_mem needs)
    | instruction declared stands =>
        exact .instruction (hasEvents_mapFiles.mpr ⟨_, declared, rfl⟩)
          (fileStands_mapFilesIn.mpr ⟨old, stands, rfl⟩)
    | globalObject member needs =>
        exact .globalObject (List.mem_map_of_mem member) (List.mem_map_of_mem needs)

end Project

end GameExport
