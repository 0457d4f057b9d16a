import GameExport.Export.Packaging
import GameExport.Proofs.FileTree.Below
import GameExport.Proofs.FileTree.Opening
import GameExport.Proofs.Unit.Files

/-! # What an archive of a directory holds

The archive is opened before the directory is listed, and it may stand in the directory. Main
statement: an archive that was made without an error holds each regular file below the directory
but itself, once, under the way down to it and with its own content.
-/

namespace GameExport

open FileTree

namespace Archive

variable {tree : FileTree} {directory : Path} {here : Location}

/-! ## Paths below a directory -/

theorem pathBelow_concat (directory : Path) (names : List String) (name : String) :
    pathBelow directory (names ++ [name]) = (pathBelow directory names).child name := by
  rw [pathBelow, List.foldl_concat, pathBelow]

theorem components_pathBelow (directory : Path) {names : List String}
    (areNames : ∀ name ∈ names, IsName name) :
    (pathBelow directory names).components = directory.components ++ names.map .name := by
  induction names using List.reverseRecOn with
  | nil => exact (List.append_nil _).symm
  | append_singleton names name induction =>
      have above := induction fun other member => areNames other (by simp [member])
      rw [pathBelow_concat, Path.components_child _ (areNames name (by simp)), above]
      simp

theorem same_pathBelow_child_iff (directory : Path) {names : List String}
    (areNames : ∀ name ∈ names, IsName name) {name : String} (isName : IsName name) :
    (pathBelow directory names).same (directory.child name) = true ↔ names = [name] := by
  rw [Path.same_iff, components_pathBelow directory areNames,
    Path.components_child directory isName, List.append_cancel_left_eq]
  constructor
  · intro same
    have same : names.map Path.Component.name = [name].map Path.Component.name := same
    exact List.map_injective_iff.mpr (fun _ _ => Path.Component.name.inj) same
  · rintro rfl
    rfl

theorem text_child_ne_empty (directory : Path) {name : String} (isName : IsName name) :
    (directory.child name).text ≠ "" := by
  intro empty
  have nothing : (directory.child name).components = [] := by
    rw [Path.components, Path.pieces, Path.isAbsolute, empty]
    rfl
  rw [Path.components_child directory isName] at nothing
  exact List.concat_ne_nil _ _ nothing

theorem find_pathBelow (kept : tree.Kept) (home : tree.HomeOf directory here)
    {names : List String} {node : Node} (below : names ≠ [])
    (taken : tree.node? (here ++ names) = some node) (noLink : ∀ target, node ≠ .link target)
    {location : Location} {other : Node}
    (found : tree.find true (pathBelow directory names) = .ok (location, other)) :
    location = here ++ names := by
  induction names using List.reverseRecOn generalizing node location other with
  | nil => exact absurd rfl below
  | append_singleton names name induction =>
      have isName := kept.isName_of_node? taken name (by simp)
      rw [← List.append_assoc] at taken ⊢
      rw [pathBelow_concat] at found
      rcases find_eq_ok_iff.mp found with ⟨isOpen, arrives, _⟩
      rcases place_entry isName arrives with ⟨there, homeAbove, last⟩
      have above : there = here ++ names := by
        by_cases top : names = []
        · subst top
          rw [List.append_nil]
          exact homeAbove.unique home
        · have inside := kept.rooted.isDirectoryAt_above (by simp) taken
          have stands : tree.node? (here ++ names) = some .directory := by
            simpa [isDirectoryAt] using inside
          have notEmpty : (pathBelow directory names).text ≠ "" := by
            rcases List.eq_nil_or_concat names with none | ⟨front, final, rfl⟩
            · exact absurd none top
            · have isFinal := kept.isName_of_node? stands final (by simp)
              rw [List.concat_eq_append, pathBelow_concat]
              exact text_child_ne_empty _ isFinal
          rw [HomeOf, if_neg notEmpty] at homeAbove
          exact induction top stands (fun _ => Node.noConfusion) homeAbove
      subst above
      have stops : tree.Stops .target (here ++ names ++ [name]) := by
        refine .inr fun target link => noLink target ?_
        exact Option.some.inj (taken.symm.trans link)
      cases last stops
      rfl

/-! ## Names of entries -/

theorem intercalate_injective {names others : List String} (notEmpty : names ≠ [])
    (othersNotEmpty : others ≠ []) (areNames : ∀ name ∈ names, IsName name)
    (othersAreNames : ∀ name ∈ others, IsName name)
    (same : "/".intercalate names = "/".intercalate others) : names = others := by
  have split {names : List String} (notEmpty : names ≠ [])
      (areNames : ∀ name ∈ names, IsName name) :
      ("/".intercalate names).toList.splitOn '/' = names.map String.toList := by
    rw [String.toList_intercalate]
    apply List.splitOn_intercalate
    · intro letters member
      rcases List.mem_map.mp member with ⟨name, among, rfl⟩
      exact (areNames name among).noSlash
    · simpa using notEmpty
  have letters := split notEmpty areNames
  rw [same, split othersNotEmpty othersAreNames] at letters
  exact (List.map_injective_iff.mpr (fun _ _ => String.toList_inj.mp) letters).symm

/-! ## Entries -/

/-- Whether entries are the regular files below a directory but the archive that stands in it, each
once, named by the way down to it and with its content. -/
structure Covers (tree : FileTree) (here : Location) (entries : List Entry) : Prop where
  once : (entries.map Entry.name).Nodup
  exactly : ∀ entry, entry ∈ entries ↔ ∃ names, names ≠ [] ∧ names ≠ [archiveName] ∧
    entry.name = "/".intercalate names ∧ tree.node? (here ++ names) = some (.file entry.content)

theorem isName_archiveName : IsName archiveName := by decide

def entryAt (tree : FileTree) (here : Location) (names : List String) : Entry :=
  ⟨"/".intercalate names,
    match tree.node? (here ++ names) with
    | some (.file content) => content
    | _ => []⟩

theorem entryAt_eq {names : List String} {content : Bytes}
    (taken : tree.node? (here ++ names) = some (.file content)) :
    entryAt tree here names = ⟨"/".intercalate names, content⟩ := by
  rw [entryAt, taken]

/-- Whether ways down lead to the regular files below a directory but the archive that stands in it,
each once. -/
structure LeadToFiles (tree : FileTree) (here : Location) (ways : List (List String)) : Prop where
  once : ways.Nodup
  exactly : ∀ names, names ∈ ways ↔ names ≠ [] ∧ names ≠ [archiveName] ∧
    ∃ content, tree.node? (here ++ names) = some (.file content)

theorem leadToFiles_of_listing (kept : tree.Kept) (home : tree.HomeOf directory here)
    {listed : List (List String)} (listing : tree.regularFilesBelow directory = .ok listed) :
    LeadToFiles tree here (listed.filter fun names =>
      !(pathBelow directory names).same (directory.child archiveName)) := by
  rcases kept.regularFilesBelow_eq home listing with ⟨distinct, members⟩
  refine ⟨distinct.filter _, fun names => ?_⟩
  rw [List.mem_filter, members]
  constructor
  · rintro ⟨⟨below, content, taken⟩, apart⟩
    refine ⟨below, ?_, content, taken⟩
    rintro rfl
    have isSame : (pathBelow directory [archiveName]).same (directory.child archiveName) = true :=
      (same_pathBelow_child_iff directory (by decide) isName_archiveName).mpr rfl
    simp [isSame] at apart
  · rintro ⟨below, apart, content, taken⟩
    have areNames := fun name member =>
      kept.isName_of_node? taken name (List.mem_append_right here member)
    refine ⟨⟨below, content, taken⟩, ?_⟩
    rw [Bool.not_eq_true', ← Bool.not_eq_true,
      same_pathBelow_child_iff directory areNames isName_archiveName]
    exact apart

theorem eq_entryAt_of_entryOf (kept : tree.Kept) (home : tree.HomeOf directory here)
    {names : List String} {content : Bytes} {entry : Entry} (below : names ≠ [])
    (taken : tree.node? (here ++ names) = some (.file content))
    (read : entryOf tree directory names = .ok entry) : entry = entryAt tree here names := by
  rw [entryOf] at read
  split at read
  · rename_i held reads
    cases read
    rcases read_eq_ok_iff.mp reads with ⟨location, found⟩
    obtain rfl : location = here ++ names :=
      find_pathBelow kept home below taken (fun _ => Node.noConfusion) found
    rcases find_eq_ok_iff.mp found with ⟨_, _, holds, _⟩
    exact (entryAt_eq holds).symm
  · cases read

theorem LeadToFiles.covers (kept : tree.Kept) {ways : List (List String)}
    (lead : LeadToFiles tree here ways) : Covers tree here (ways.map (entryAt tree here)) := by
  constructor
  · rw [List.map_map]
    refine List.Nodup.map_on ?_ lead.once
    intro names member more again same
    rcases (lead.exactly names).mp member with ⟨below, _, _, taken⟩
    rcases (lead.exactly more).mp again with ⟨moreBelow, _, _, moreTaken⟩
    have areNames := fun name among =>
      kept.isName_of_node? taken name (List.mem_append_right here among)
    have moreAreNames := fun name among =>
      kept.isName_of_node? moreTaken name (List.mem_append_right here among)
    exact intercalate_injective below moreBelow areNames moreAreNames same
  · intro entry
    rw [List.mem_map]
    constructor
    · rintro ⟨names, member, rfl⟩
      rcases (lead.exactly names).mp member with ⟨below, apart, content, taken⟩
      rw [entryAt_eq taken]
      exact ⟨names, below, apart, rfl, taken⟩
    · rintro ⟨names, below, apart, named, taken⟩
      refine ⟨names, (lead.exactly names).mpr ⟨below, apart, _, taken⟩, ?_⟩
      rw [entryAt_eq taken, ← named]

theorem eq_map_of_mapM {ε α β : Type} {read : α → Except ε β} {known : α → β} {items : List α}
    {values : List β} (each : ∀ item ∈ items, ∀ value, read item = .ok value → value = known item)
    (done : items.mapM read = .ok values) : values = items.map known := by
  induction items generalizing values with
  | nil =>
      cases done
      rfl
  | cons item rest induction =>
      rw [List.mapM_cons] at done
      cases first : read item with
      | error error =>
          rw [first] at done
          cases done
      | ok value =>
          cases others : rest.mapM read with
          | error error =>
              rw [first, others] at done
              cases done
          | ok further =>
              rw [first, others] at done
              cases done
              have same := induction
                (fun other member => each other (List.mem_cons_of_mem item member)) others
              rw [List.map_cons, each item List.mem_cons_self value first, same]

/-- The entries of an archive are the files below the directory, if the archive is none of them. -/
theorem covers_of_entriesBelow (kept : tree.Kept) (home : tree.HomeOf directory here)
    {entries : List Entry}
    (given : entriesBelow tree directory (directory.child archiveName) = .ok entries) :
    Covers tree here entries := by
  rw [entriesBelow] at given
  cases listing : tree.regularFilesBelow directory with
  | error cause =>
      rw [listing] at given
      cases given
  | ok listed =>
      rw [listing] at given
      have lead := leadToFiles_of_listing kept home listing
      have all : entries = (listed.filter fun names =>
          !(pathBelow directory names).same (directory.child archiveName)).map
            (entryAt tree here) := by
        refine eq_map_of_mapM (fun names member entry read => ?_) given
        rcases (lead.exactly names).mp member with ⟨below, _, content, taken⟩
        exact eq_entryAt_of_entryOf kept home below taken read
      rw [all]
      exact lead.covers kept

/-- Whether the archive of a directory is opened below it under its own name only, not through a
link to another file there. -/
def OwnPlace (tree : FileTree) (directory : Path) : Prop :=
  ∀ here location, tree.HomeOf directory here →
    tree.writable (directory.child archiveName) = .ok location →
    here <+: location → location = here ++ [archiveName]

theorem ownPlace_of_home (home : tree.HomeOf directory here)
    (own : ∀ location ∈ (tree.writable (directory.child archiveName)).toOption,
      here <+: location → location = here ++ [archiveName]) : OwnPlace tree directory := by
  intro there location homeToo opens below
  obtain rfl := homeToo.unique home
  exact own location (by rw [opens]; rfl) below

variable {encode : List Entry → Bytes}

/-- An archive is only ever opened where its directory can be found. -/
theorem exists_homeOf_of_createWith {after : FileTree}
    (made : createWith encode tree directory (directory.child archiveName) = (after, .ok ())) :
    ∃ here, tree.HomeOf directory here := by
  rw [createWith] at made
  split at made
  · cases made
  · rename_i location opens
    rcases place_of_writable opens with ⟨isOpen, arrives⟩
    rcases place_entry isName_archiveName arrives with ⟨here, home, _⟩
    exact ⟨here, home⟩

theorem covers_of_createWith (kept : tree.Kept) (home : tree.HomeOf directory here)
    {after : FileTree} (own : OwnPlace tree directory)
    (made : createWith encode tree directory (directory.child archiveName) = (after, .ok ())) :
    ∃ location entries, tree.writable (directory.child archiveName) = .ok location ∧
      after = tree.put location (.file (encode entries)) ∧ Covers tree here entries := by
  rw [createWith] at made
  split at made
  · cases made
  · rename_i location opens
    split at made
    · rename_i entries given
      cases made
      have differ := kept.rooted.differAt_put opens []
      have covers := covers_of_entriesBelow (kept.put_writable opens [])
        (home.differAt kept.rooted differ) given
      refine ⟨location, entries, opens, rfl, covers.once, fun entry => ?_⟩
      rw [covers.exactly]
      -- the archive stands at no other way down than its own, which is left out
      have same {names : List String} (other : names ≠ [archiveName]) :
          (tree.put location (.file [])).node? (here ++ names) = tree.node? (here ++ names) := by
        apply differ.elsewhere
        rintro rfl
        exact other (List.append_cancel_left (own _ _ home opens (List.prefix_append here names)))
      constructor
      · rintro ⟨names, below, other, named, taken⟩
        exact ⟨names, below, other, named, same other ▸ taken⟩
      · rintro ⟨names, below, other, named, taken⟩
        exact ⟨names, below, other, named, (same other).trans taken⟩
    · cases made

end Archive

end GameExport
