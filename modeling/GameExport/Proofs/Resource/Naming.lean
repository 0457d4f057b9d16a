import GameExport.Resource.Naming
import GameExport.Proofs.FileTree.Child
import Mathlib.Data.List.Nodup
import Mathlib.Data.List.Perm.Subperm

/-! # Names of resources are told apart

Main statement: however many files are named, no two of them get the same name, and each name is
one that an entry of a directory can have.
-/

namespace GameExport

/-! ## Names in paths -/

theorem mem_intercalate {separator : Char} {parts : List (List Char)} {letter : Char}
    (member : letter ∈ [separator].intercalate parts) :
    letter = separator ∨ ∃ part ∈ parts, letter ∈ part := by
  induction parts with
  | nil => cases member
  | cons first rest induction =>
      cases rest with
      | nil =>
          rw [List.intercalate_singleton] at member
          exact .inr ⟨first, List.mem_cons_self, member⟩
      | cons second rest =>
          rw [List.intercalate_cons_cons, List.append_assoc] at member
          rcases List.mem_append.mp member with among | member
          · exact .inr ⟨first, List.mem_cons_self, among⟩
          · rcases List.mem_cons.mp member with same | member
            · exact .inl same
            · rcases induction member with same | ⟨part, among, holds⟩
              · exact .inl same
              · exact .inr ⟨part, List.mem_cons_of_mem _ among, holds⟩

theorem isName_of_ofPiece? {text piece value : String} (member : piece ∈ Path.pieces text)
    (stands : Path.Component.ofPiece? piece = some (.name value)) : IsName value := by
  rw [Path.Component.ofPiece?] at stands
  split at stands
  · cases stands
  · rename_i named
    split at stands
    · cases stands
    · rename_i notParent
      cases stands
      rcases List.mem_map.mp member with ⟨letters, part, rfl⟩
      refine ⟨fun empty => named (.inl empty), fun here => named (.inr here), notParent, ?_⟩
      simpa using (mem_splitOn part).1

theorem isName_of_fileName? {path : Path} {name : String} (stands : path.fileName? = some name) :
    IsName name := by
  rw [Path.fileName?] at stands
  split at stands
  · rename_i value last
    cases stands
    have member := List.mem_of_getLast? last
    rw [Path.components] at member
    rcases List.mem_append.mp member with front | member
    · split at front
      · simp at front
      · split at front
        · simp at front
        · cases front
    · rcases List.mem_filterMap.mp member with ⟨piece, among, same⟩
      exact isName_of_ofPiece? among same
  · cases stands

theorem noSlash_splitExtension {name : String} (noSlash : '/' ∉ name.toList) :
    '/' ∉ (Path.splitExtension name).1.toList ∧
      ∀ ending, (Path.splitExtension name).2 = some ending → '/' ∉ ending.toList := by
  have parts {part : List Char} (member : part ∈ name.toList.splitOn '.') : '/' ∉ part :=
    fun slash => noSlash ((mem_splitOn member).2 _ slash)
  rw [Path.splitExtension]
  split
  · exact ⟨noSlash, fun _ wrong => by cases wrong⟩
  · dsimp only
    split
    · exact ⟨noSlash, fun _ wrong => by cases wrong⟩
    · constructor
      · rw [String.toList_ofList]
        intro slash
        rcases mem_intercalate slash with same | ⟨part, member, slash⟩
        · exact absurd same (by decide)
        · exact parts (List.dropLast_subset _ member) slash
      · intro ending same
        rcases Option.map_eq_some_iff.mp same with ⟨part, last, rfl⟩
        rw [String.toList_ofList]
        exact parts (List.mem_of_getLast? last)

namespace ResourceNames

/-! ## Numbered names -/

theorem stem_noSlash (file : Path) : '/' ∉ (file.fileStem?.getD unnamed).toList := by
  rw [Path.fileStem?]
  cases stands : file.fileName? with
  | none => decide
  | some name => exact (noSlash_splitExtension (isName_of_fileName? stands).noSlash).1

theorem numbered_eq (file : Path) :
    ∃ ending : String, '/' ∉ ending.toList ∧
      ∀ number, numbered file number = file.fileStem?.getD unnamed ++ number.repr ++ ending := by
  cases stands : file.extension? with
  | none =>
      refine ⟨"", by simp, fun number => ?_⟩
      simp [numbered, stands, toString]
  | some ending =>
      refine ⟨"." ++ ending, ?_, fun number => ?_⟩
      · rcases Option.bind_eq_some_iff.mp stands with ⟨name, named, same⟩
        have noSlash := (noSlash_splitExtension (isName_of_fileName? named).noSlash).2 ending same
        simpa using noSlash
      · simp [numbered, stands, String.append_assoc, toString]

theorem repr_injective {left right : Nat} (same : left.repr = right.repr) : left = right := by
  have digits : Nat.toDigits 10 left = Nat.toDigits 10 right := by
    rw [← Nat.toList_repr, ← Nat.toList_repr, same]
  have read := congrArg (fun digits => Nat.ofDigitChars 10 digits 0) digits
  simpa using read

theorem numbered_injective (file : Path) {left right : Nat}
    (same : numbered file left = numbered file right) : left = right := by
  rcases numbered_eq file with ⟨ending, _, shape⟩
  rw [shape, shape] at same
  have same := congrArg String.toList same
  simp only [String.toList_append, List.append_assoc] at same
  have same := List.append_cancel_right (List.append_cancel_left same)
  exact repr_injective (String.toList_inj.mp same)

theorem isName_numbered (file : Path) (number : Nat) : IsName (numbered file number) := by
  rcases numbered_eq file with ⟨ending, noSlash, shape⟩
  -- a digit tells the name from the empty text and the dots
  have digit : ∃ letter ∈ number.repr.toList, letter.isDigit = true := by
    rw [Nat.toList_repr]
    cases digits : Nat.toDigits 10 number with
    | nil => exact absurd digits Nat.toDigits_ne_nil
    | cons first rest =>
        have member : first ∈ Nat.toDigits 10 number := digits ▸ List.mem_cons_self
        exact ⟨first, List.mem_cons_self,
          Nat.isDigit_of_mem_toDigits (by decide) (by decide) member⟩
  rcases digit with ⟨letter, member, isDigit⟩
  have among : letter ∈ (numbered file number).toList := by
    rw [shape, String.toList_append, String.toList_append]
    exact List.mem_append_left _ (List.mem_append_right _ member)
  have apart {text : String} (noDigit : ∀ other ∈ text.toList, ¬ other.isDigit = true) :
      numbered file number ≠ text := by
    rintro rfl
    exact noDigit letter among isDigit
  refine ⟨apart (by simp), apart (by simp), apart (by simp), ?_⟩
  rw [shape, String.toList_append, String.toList_append]
  intro slash
  rcases List.mem_append.mp slash with front | back
  · rcases List.mem_append.mp front with stem | digits
    · exact stem_noSlash file stem
    · rw [Nat.toList_repr] at digits
      have isDigit := Nat.isDigit_of_mem_toDigits (by decide) (by decide) digits
      exact absurd isDigit (by decide)
  · exact noSlash back

/-! ## Free names -/

theorem isTaken_iff {names : ResourceNames} {name : String} :
    names.isTaken name = true ↔ name ∈ names.entries.map Prod.snd := by
  simp [isTaken]

theorem isTaken_of_firstFree?_eq_none {names : ResourceNames} {file : Path} {tries number : Nat}
    (none : names.firstFree? file tries number = none) :
    ∀ step, step < tries → names.isTaken (numbered file (number + step)) = true := by
  induction tries generalizing number with
  | zero =>
      intro step impossible
      omega
  | succ tries induction =>
      rw [firstFree?] at none
      split at none
      · rename_i taken
        intro step within
        cases step with
        | zero => exact taken
        | succ step =>
            have further := induction none step (by omega)
            rwa [Nat.add_right_comm, Nat.add_assoc] at further
      · cases none

theorem firstFree?_ne_none (names : ResourceNames) (file : Path) (number : Nat) :
    names.firstFree? file (names.entries.length + 1) number ≠ none := by
  intro none
  have taken := isTaken_of_firstFree?_eq_none none
  let numbers := (List.range (names.entries.length + 1)).map fun step =>
    numbered file (number + step)
  have distinct : numbers.Nodup := by
    refine List.Nodup.map ?_ List.nodup_range
    intro left right same
    have same := numbered_injective file same
    omega
  have subset : numbers ⊆ names.entries.map Prod.snd := by
    intro name member
    rcases List.mem_map.mp member with ⟨step, within, rfl⟩
    exact isTaken_iff.mp (taken step (List.mem_range.mp within))
  have few := (List.subperm_of_subset distinct subset).length_le
  simp only [numbers, List.length_map, List.length_range] at few
  omega

theorem freeName_free (names : ResourceNames) (file : Path) :
    names.isTaken (names.freeName file) = false := by
  rw [freeName]
  split
  · cases found : names.firstFree? file (names.entries.length + 1) 2 with
    | none => exact absurd found (names.firstFree?_ne_none file 2)
    | some name => exact isTaken_of_firstFree? found
  · rename_i free
    simpa using free

theorem isName_of_firstFree? {names : ResourceNames} {file : Path} {tries number : Nat}
    {name : String} (found : names.firstFree? file tries number = some name) : IsName name := by
  induction tries generalizing number with
  | zero => cases found
  | succ tries induction =>
      rw [firstFree?] at found
      split at found
      · exact induction found
      · cases found
        exact isName_numbered file number

theorem isName_freeName (names : ResourceNames) (file : Path) : IsName (names.freeName file) := by
  have own : IsName (file.fileName?.getD unnamed) := by
    cases stands : file.fileName? with
    | none => exact ⟨by decide, by decide, by decide, by decide⟩
    | some name => exact isName_of_fileName? stands
  rw [freeName]
  split
  · cases found : names.firstFree? file (names.entries.length + 1) 2 with
    | none => exact own
    | some name => exact isName_of_firstFree? found
  · exact own

/-! ## Names that are told apart -/

/-- Every name is given out once, and can be the name of an entry of a directory. -/
structure Apart (names : ResourceNames) : Prop where
  distinct : (names.entries.map Prod.snd).Nodup
  named : ∀ entry ∈ names.entries, IsName entry.2

theorem apart_empty : Apart .empty := ⟨.nil, nofun⟩

theorem perm_insertByPath (entry : Path × String) (entries : List (Path × String)) :
    (insertByPath entry entries).Perm (entry :: entries) := by
  induction entries with
  | nil => rfl
  | cons other rest induction =>
      rw [insertByPath]
      split
      · rfl
      · exact (induction.cons other).trans (.swap entry other rest)

theorem Apart.give {names : ResourceNames} (apart : names.Apart) (file : Path) :
    (names.give file).2.Apart := by
  rw [ResourceNames.give]
  split
  · exact apart
  · have same := perm_insertByPath (file, names.freeName file) names.entries
    constructor
    · rw [(same.map Prod.snd).nodup_iff, List.map_cons]
      refine List.nodup_cons.mpr ⟨?_, apart.distinct⟩
      intro taken
      have free := names.freeName_free file
      rw [isTaken_iff.mpr taken] at free
      cases free
    · intro entry member
      rcases List.mem_cons.mp (same.mem_iff.mp member) with rfl | old
      · exact names.isName_freeName file
      · exact apart.named entry old

theorem Apart.expose {names : ResourceNames} (apart : names.Apart) (files : FileTree)
    (base : Path) (path : String) : (ResourceNames.expose files base path names).2.Apart := by
  rw [ResourceNames.expose]
  split
  · exact apart
  · exact apart.give _

end ResourceNames

end GameExport
