import GameExport.Proofs.Container.Contents
import GameExport.Proofs.Export.Clean

/-! # What copying the resources leaves

Each resource is copied to a name of its own. Main statement: after all resources have been copied
without an error, each name holds what can be read at the path that it was given to, and whatever
could be read before can still be read.
-/

namespace GameExport

open ExportM FileTree

theorem copy_of_copyFile {files after : FileTree} {source target : Path}
    (copied : Package.copyFile files source target = .ok after) :
    files.copy source target = .ok after := by
  rw [Package.copyFile] at copied
  cases result : files.copy source target with
  | error cause =>
      rw [result] at copied
      cases copied
  | ok tree =>
      rw [result] at copied
      cases copied
      rfl

/-- Resources that have been copied to a directory, from a tree in which it was empty. -/
structure Copied (directory : Path) (before : FileTree) (resources : List (Path × String))
    (contents : String → Option Bytes) (after : FileTree) : Prop where
  holding : Holding directory contents after
  names : ∀ name, (∃ content, contents name = some content) ↔ name ∈ resources.map Prod.snd
  copies : ∀ entry ∈ resources, ∃ content,
    after.read entry.1 = .ok content ∧ contents entry.2 = some content
  reads : ∀ path content, before.read path = .ok content → after.read path = .ok content

theorem Copied.step {directory : Path} {before files after : FileTree}
    {done : List (Path × String)} {contents : String → Option Bytes}
    (copied : Copied directory before done contents files) {entry : Path × String}
    (isName : IsName entry.2) (fresh : entry.2 ∉ done.map Prod.snd)
    (copies : Package.copyFile files entry.1 (directory.child entry.2) = .ok after) :
    ∃ contents, Copied directory before (done ++ [entry]) contents after := by
  have copy := copy_of_copyFile copies
  have free : contents entry.2 = none := by
    cases held : contents entry.2 with
    | none => rfl
    | some content => exact absurd ((copied.names _).mp ⟨content, held⟩) fresh
  rcases writable_of_copy copy with ⟨location, writable⟩
  rcases copied.holding.flat isName writable with ⟨here, flat⟩
  rcases flat.copy_eq isName free copy with ⟨content, original, rfl⟩
  have reads {path : Path} {other : Bytes} (held : files.read path = .ok other) :
      (files.put (here ++ [entry.2]) (.file content)).read path = .ok other := by
    rcases read_eq_ok_iff.mp held with ⟨place, found⟩
    have apart : place ≠ here ++ [entry.2] := by
      rintro rfl
      rcases find_eq_ok_iff.mp found with ⟨_, _, taken, _⟩
      rw [flat.node?_eq_none free] at taken
      cases taken
    exact read_eq_ok_iff.mpr
      ⟨place, find_differAt ((flat.leaf entry.2).differAt_put content) found apart⟩
  refine ⟨Function.update contents entry.2 (some content), (flat.put isName content).holding,
    ?_, ?_, fun path other held => reads (copied.reads path other held)⟩
  · intro name
    rw [List.map_append, List.mem_append, List.map_singleton, List.mem_singleton]
    by_cases same : name = entry.2
    · rw [same, Function.update_self]
      exact ⟨fun _ => .inr rfl, fun _ => ⟨content, rfl⟩⟩
    · rw [Function.update_of_ne same, copied.names name]
      simp [same]
  · intro other member
    rcases List.mem_append.mp member with earlier | last
    · rcases copied.copies other earlier with ⟨held, readable, contains⟩
      have apart : other.2 ≠ entry.2 := by
        intro same
        exact fresh (same ▸ List.mem_map_of_mem earlier)
      refine ⟨held, reads readable, ?_⟩
      rw [Function.update_of_ne apart, contains]
    · rcases List.mem_singleton.mp last with rfl
      exact ⟨content, reads original, Function.update_self ..⟩

variable {tool : ExportTool} {request : ExportRequest}

theorem meets_copyResource (quiet : request.IsQuiet) {before : FileTree} {total place : Nat}
    {done : List (Path × String)} {entry : Path × String} (isName : IsName entry.2)
    (fresh : entry.2 ∉ done.map Prod.snd) :
    Meets
      (Clean fun files => ∃ contents, Copied tool.workingDirectory before done contents files)
      (copyResource tool request total (entry, place))
      (fun _ => Clean fun files =>
        ∃ contents, Copied tool.workingDirectory before (done ++ [entry]) contents files)
      fun _ _ => True := by
  apply Meets.bind (maintains_say quiet _ _).meets
  intro _
  refine Meets.bind (meets_attempt ?_) fun _ => (maintains_progress quiet _).meets
  rintro files after ⟨contents, copied⟩ copies
  exact copied.step isName fresh copies

theorem meets_copyResources (quiet : request.IsQuiet) {start : ExportState}
    (apart : start.resources.Apart)
    (empty : Clean (Holding tool.workingDirectory fun _ => none) start) :
    Meets (fun state => state = start) (copyResources tool request)
      (fun _ => Clean fun files => ∃ contents,
        Copied tool.workingDirectory start.files start.resources.entries contents files)
      fun _ _ => True := by
  have said : Meets (fun state => state = start) (say request copyingMessage none)
      (fun _ state => state.resources = start.resources ∧
        Clean (fun files => ∃ contents,
          Copied tool.workingDirectory start.files [] contents files) state)
      fun _ _ => True := by
    intro state same
    subst same
    have quietly : (request.react (.message copyingMessage none) state.workshop.world).files =
        state.files := quiet _ _
    refine ⟨rfl, fun spotless => ⟨fun _ => none, ?_, by simp, nofun, ?_⟩⟩
    · change Holding _ _ (request.react _ state.workshop.world).files
      rw [quietly]
      exact empty spotless
    · intro path content held
      change (request.react _ state.workshop.world).files.read path = _
      rw [quietly]
      exact held
  apply Meets.bind said
  intro _
  apply meets_get_bind
  intro told holds
  rcases holds with ⟨same, clean⟩
  dsimp only
  rw [same]
  have whole : (start.resources.entries.zipIdx 1).map Prod.fst = start.resources.entries := by
    simp
  -- No two entries share a name, so a copy never takes the place of an earlier one.
  have step : ∀ done item rest, start.resources.entries.zipIdx 1 = done ++ item :: rest →
      Meets
        (Clean fun files => ∃ contents,
          Copied tool.workingDirectory start.files (done.map Prod.fst) contents files)
        (copyResource tool request start.resources.entries.length item)
        (fun _ => Clean fun files => ∃ contents,
          Copied tool.workingDirectory start.files ((done ++ [item]).map Prod.fst) contents files)
        fun _ _ => True := by
    intro done item rest split
    rw [split, List.map_append, List.map_cons] at whole
    have distinct := apart.distinct
    rw [← whole, List.map_append, List.map_cons] at distinct
    have isName : IsName item.1.2 := apart.named item.1 (whole ▸ by simp)
    have fresh : item.1.2 ∉ (done.map Prod.fst).map Prod.snd := fun earlier =>
      (List.nodup_append.mp distinct).2.2 _ earlier _ List.mem_cons_self rfl
    rw [List.map_append]
    exact meets_copyResource quiet isName fresh
  have all := Meets.forM step
  rw [whole] at all
  exact all.start clean

end GameExport
