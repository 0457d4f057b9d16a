import GameExport.Proofs.Inclusion.Answer
import Mathlib

/-! # Which sheets are compiled on their own

A sheet is compiled on its own for the only scene that reaches it through links at the top alone.
Main statement: that is also the only scene that uses the sheet in any way, unless another scene
reaches it through a link inside an event.
-/

namespace GameExport

theorem mem_around {α : Type} {before after : List α} {middle item : α} :
    item ∈ before ++ middle :: after ↔ item = middle ∨ item ∈ before ++ after := by
  simp only [List.mem_append, List.mem_cons, or_left_comm]

namespace Project

variable {project : Project} {scene sheet : String}

/-- A scene from which no cycle can be reached needs a sheet. -/
def Uses (project : Project) (sheet scene : String) : Prop :=
  project.Acyclic (.scene scene) ∧ project.Reaches (.scene scene) (.externalEvents sheet)

/-- A scene uses a sheet, and reaches it through links at the top alone. -/
def UsesAtTop (project : Project) (sheet scene : String) : Prop :=
  project.Uses sheet scene ∧ ¬ project.ReachesNested (.scene scene) (.externalEvents sheet)

/-- One scene of the project, and no other one that is declared, has a property. Scenes that share
a name are different scenes. -/
def OnlyScene (project : Project) (property : String → Prop) (scene : String) : Prop :=
  ∃ before declared after, project.scenes = before ++ declared :: after ∧ declared.name = scene ∧
    property scene ∧ ∀ other ∈ before ++ after, ¬ property other.name

theorem OnlyScene.mono {property stronger : String → Prop}
    (only : project.OnlyScene property scene) (implies : ∀ scene, stronger scene → property scene)
    (holds : stronger scene) : project.OnlyScene stronger scene := by
  obtain ⟨before, declared, after, split, named, _, others⟩ := only
  exact ⟨before, declared, after, split, named, holds,
    fun other member isStronger => others other member (implies _ isStronger)⟩

/-! ## One scene -/

theorem usesOnlyAtTop_iff :
    project.inclusionAnalysis.usesOnlyAtTop sheet scene = true ↔
      project.Declares (.scene scene) ∧ project.UsesAtTop sheet scene := by
  obtain ⟨_, _, _, answered, given⟩ := project.needs_agrees_with_relation (.scene scene)
  rw [InclusionAnalysis.usesOnlyAtTop]
  cases answer : project.inclusionAnalysis.needs (.scene scene) with
  | error error =>
      rw [answer] at answered
      constructor
      · rintro ⟨⟩
      · rintro ⟨declared, uses, _⟩
        obtain ⟨requirements, impossible⟩ := answered.mpr ⟨declared, uses.1⟩
        cases impossible
  | ok requirements =>
      obtain ⟨declared, acyclic⟩ := answered.mp ⟨requirements, answer⟩
      obtain ⟨holds, nested⟩ := given requirements answer
      have needed : sheet ∈ requirements.externalEvents ↔
          project.Reaches (.scene scene) (.externalEvents sheet) :=
        (holds (.externalEvents sheet)).trans (and_iff_left (by simp))
      simp only [Requirements.usesOnlyAtTop, Bool.and_eq_true, decide_eq_true_eq, needed, nested,
        UsesAtTop, Uses, declared, acyclic, true_and]

/-! ## All scenes -/

theorem soleUser?_eq_some :
    project.inclusionAnalysis.soleUser? sheet = some scene ↔
      (project.scenes.map Scene.name).filter (project.inclusionAnalysis.usesOnlyAtTop sheet) =
        [scene] := by
  have scenes : project.inclusionAnalysis.scenes = project.scenes.map Scene.name := rfl
  rw [InclusionAnalysis.soleUser?, scenes]
  split
  · rename_i only same
    rw [same, Option.some.injEq, List.cons.injEq, and_iff_left rfl]
  · rename_i several
    constructor
    · rintro ⟨⟩
    · intro single
      exact absurd single (several scene)

theorem onlyScene_iff {property : String → Prop} {test : String → Bool}
    (tests : ∀ scene ∈ project.scenes, test scene.name = true ↔ property scene.name) :
    (project.scenes.map Scene.name).filter test = [scene] ↔ project.OnlyScene property scene := by
  rw [List.filter_eq_cons_iff, OnlyScene]
  constructor
  · rintro ⟨front, back, split, frontFails, passes, backFails⟩
    obtain ⟨before, rest, scenes, rfl, names⟩ := List.map_eq_append_iff.mp split
    obtain ⟨declared, after, rfl, rfl, rfl⟩ := List.map_eq_cons_iff.mp names
    rw [scenes] at tests
    refine ⟨before, declared, after, scenes, rfl, ?_, ?_⟩
    · exact (tests declared (mem_around.mpr (.inl rfl))).mp passes
    · intro other member holds
      have passesToo := (tests other (mem_around.mpr (.inr member))).mpr holds
      rcases List.mem_append.mp member with member | member
      · exact frontFails _ (List.mem_map_of_mem member) passesToo
      · exact List.filter_eq_nil_iff.mp backFails _ (List.mem_map_of_mem member) passesToo
  · rintro ⟨before, declared, after, scenes, rfl, holds, others⟩
    rw [scenes] at tests
    have fails {other : Scene} (member : other ∈ before ++ after)
        (passes : test other.name = true) : False :=
      others other member ((tests other (mem_around.mpr (.inr member))).mp passes)
    refine ⟨before.map Scene.name, after.map Scene.name, by simp [scenes], ?_, ?_, ?_⟩
    · intro name member
      obtain ⟨other, isOther, rfl⟩ := List.mem_map.mp member
      exact fails (List.mem_append_left _ isOther)
    · exact (tests declared (mem_around.mpr (.inl rfl))).mpr holds
    · rw [List.filter_eq_nil_iff]
      intro name member
      obtain ⟨other, isOther, rfl⟩ := List.mem_map.mp member
      exact fails (List.mem_append_right _ isOther)

/-- The scene for which a sheet is compiled on its own is the only one that uses it at the top
alone. -/
theorem soleUser?_iff_onlyScene :
    project.inclusionAnalysis.soleUser? sheet = some scene ↔
      project.OnlyScene (project.UsesAtTop sheet) scene := by
  rw [soleUser?_eq_some]
  apply onlyScene_iff
  intro declaration declared
  rw [usesOnlyAtTop_iff, and_iff_right (.scene declared)]

/-- A sheet is compiled on its own exactly for the only scene that uses it at the top alone. That is
the only scene that uses it at all, unless another one reaches it through a link inside an event. -/
theorem soleUser_onlyAtTop (project : Project) (sheet : String) :
    (∀ scene, project.inclusionAnalysis.soleUser? sheet = some scene ↔
      project.OnlyScene (project.UsesAtTop sheet) scene) ∧
    ((∀ scene, project.inclusionAnalysis.soleUser? sheet = some scene ↔
        project.OnlyScene (project.Uses sheet) scene ∧ project.UsesAtTop sheet scene) ↔
      ¬ ∃ scene, project.OnlyScene (project.UsesAtTop sheet) scene ∧
        ∃ other ∈ project.scenes, project.Uses sheet other.name ∧
          project.ReachesNested (.scene other.name) (.externalEvents sheet)) := by
  refine ⟨fun scene => soleUser?_iff_onlyScene, ?_⟩
  simp only [soleUser?_iff_onlyScene]
  constructor
  · rintro agree ⟨scene, only, other, declared, uses, nested⟩
    obtain ⟨⟨before, user, after, scenes, named, _, others⟩, atTop⟩ := (agree scene).mp only
    rw [scenes, mem_around] at declared
    rcases declared with rfl | member
    · exact atTop.2 (named ▸ nested)
    · exact others other member uses
  · intro unmixed scene
    constructor
    · intro only
      obtain ⟨before, user, after, scenes, named, holds, others⟩ := only
      refine ⟨⟨before, user, after, scenes, named, holds.1, ?_⟩, holds⟩
      -- A further user could only use the sheet through a link inside an event.
      intro other member uses
      by_cases nested : project.ReachesNested (.scene other.name) (.externalEvents sheet)
      · have declared : other ∈ project.scenes := scenes ▸ mem_around.mpr (.inr member)
        exact unmixed ⟨scene, ⟨before, user, after, scenes, named, holds, others⟩,
          other, declared, uses, nested⟩
      · exact others other member ⟨uses, nested⟩
    · rintro ⟨only, atTop⟩
      exact only.mono (fun _ => And.left) atTop

def tavernGame : Project where
  name := "Tavern"
  file := ⟨"game.json"⟩
  scenes :=
    [⟨"Menu", [], [.link "Shared"], false, none⟩,
      ⟨"Level", [], [.standard [] [.link "Shared"]], false, none⟩]
  externalEvents := [⟨"Shared", "", []⟩]
  sourceFiles := []
  resources := []
  objects := []
  extensions := []
  windowsExecutable := ""
  linuxExecutable := ""
  macExecutable := ""
  usesExternalSources := false
  editor := none

/-- The sheet is compiled on its own for the menu, though the level uses it as well. -/
theorem not_always_onlyUser :
    ¬ ∀ (project : Project) (sheet scene : String),
      project.inclusionAnalysis.soleUser? sheet = some scene ↔
        project.OnlyScene (project.Uses sheet) scene ∧ project.UsesAtTop sheet scene := by
  intro always
  have analysis : tavernGame.inclusionAnalysis = ⟨["Menu", "Level"],
      [(.scene "Menu", .ok ⟨.empty, ⟨["Shared"], by decide⟩, .empty, .empty⟩),
        (.scene "Level",
          .ok ⟨.empty, ⟨["Shared"], by decide⟩, .empty, ⟨["Shared"], by decide⟩⟩),
        (.externalEvents "Shared", .ok .none)]⟩ := by cbv
  have sole : tavernGame.inclusionAnalysis.soleUser? "Shared" = some "Menu" := by
    rw [analysis]
    decide +kernel
  have level : tavernGame.inclusionAnalysis.needs (.scene "Level") =
      .ok ⟨.empty, ⟨["Shared"], by decide⟩, .empty, ⟨["Shared"], by decide⟩⟩ := by
    rw [analysis]
    rfl
  obtain ⟨_, acyclic, needs⟩ := of_needs_eq_ok level
  have uses : tavernGame.Uses "Shared" "Level" :=
    ⟨acyclic, ((needs (.externalEvents "Shared")).mp (List.mem_singleton_self _)).1⟩
  obtain ⟨⟨before, user, after, scenes, named, _, others⟩, _⟩ :=
    (always tavernGame "Shared" "Menu").mp sole
  have declared : Scene.mk "Level" [] [.standard [] [.link "Shared"]] false none ∈
      before ++ user :: after := scenes ▸ List.mem_cons_of_mem _ (List.mem_singleton_self _)
  rcases mem_around.mp declared with rfl | member
  · exact absurd named (by decide)
  · exact others _ member uses

end Project

end GameExport
