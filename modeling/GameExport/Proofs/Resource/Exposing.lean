import GameExport.Proofs.Resource.Naming
import Mathlib.Data.List.Forall2

/-! # Names of resources are stable

Exposing paths one after the other gives a name to each file they lead to. Main statement: two paths
get one name exactly if they lead to one file, a name once given stays, each file is recorded once,
and wherever the own name of a file is taken the search for a number ends at a free name.
-/

namespace GameExport

/-! ## Paths -/

theorem Path.same_iff {left right : Path} :
    left.same right = true ↔ left.components = right.components := beq_iff_eq

theorem IsName.components {name : String} (isName : IsName name) :
    (Path.mk name).components = [.name name] := by
  have pieces : Path.pieces name = [name] := by
    rw [Path.pieces, List.splitOn_eq_singleton isName.noSlash, List.map_singleton,
      String.ofList_toList]
  have relative : (Path.mk name).isAbsolute = false := Bool.eq_false_iff.mpr isName.not_isAbsolute
  have notHere : ¬ some name = some "." := fun same => isName.notHere (Option.some.inj same)
  have stands : Path.Component.ofPiece? name = some (.name name) := by
    rw [Path.Component.ofPiece?, if_neg (fun dots => dots.elim isName.notEmpty isName.notHere),
      if_neg isName.notParent]
  rw [Path.components]
  simp [pieces, relative, notHere, stands]

theorem intercalate_concat {separator : Char} {parts : List (List Char)} (notEmpty : parts ≠ [])
    (last : List Char) :
    [separator].intercalate (parts ++ [last]) =
      [separator].intercalate parts ++ separator :: last := by
  induction parts with
  | nil => exact absurd rfl notEmpty
  | cons first rest induction =>
      cases rest with
      | nil => simp [List.intercalate_cons_cons]
      | cons second rest =>
          have others := induction (List.cons_ne_nil _ _)
          rw [List.cons_append, List.cons_append, List.intercalate_cons_cons,
            List.intercalate_cons_cons, ← List.cons_append, others, List.append_assoc,
            List.append_assoc, List.append_assoc]

theorem splitExtension_eq (name : String) :
    name = (Path.splitExtension name).1 ++
      (match (Path.splitExtension name).2 with
        | some ending => "." ++ ending
        | none => "") := by
  rw [Path.splitExtension]
  split
  · exact String.append_empty.symm
  · dsimp only
    split
    · exact String.append_empty.symm
    · rename_i stem
      have whole : ['.'].intercalate (name.toList.splitOn '.') = name.toList :=
        List.intercalate_splitOn '.'
      cases last : (name.toList.splitOn '.').getLast? with
      | none => exact absurd (List.getLast?_eq_none_iff.mp last) (List.splitOn_ne_nil _ _)
      | some ending =>
          have front : (name.toList.splitOn '.').dropLast ≠ [] := by
            intro none
            rw [none] at stem
            exact stem rfl
          rw [← List.dropLast_append_getLast? ending last, intercalate_concat front] at whole
          apply String.toList_inj.mp
          rw [Option.map_some, String.toList_append, String.toList_ofList]
          simpa using whole.symm

namespace ResourceNames

/-- The name that a file has by itself. -/
def ownName (file : Path) : String := file.fileName?.getD unnamed

theorem exists_parts (file : Path) :
    ∃ stem ending : String, ownName file = stem ++ ending ∧
      ∀ number, numbered file number = stem ++ number.repr ++ ending := by
  cases stands : file.fileName? with
  | none =>
      refine ⟨unnamed, "", ?_, fun number => ?_⟩
      · simp [ownName, stands]
      · simp [numbered, Path.fileStem?, Path.extension?, stands, toString]
  | some name =>
      have split := splitExtension_eq name
      cases ends : (Path.splitExtension name).2 with
      | none =>
          refine ⟨(Path.splitExtension name).1, "", ?_, fun number => ?_⟩
          · simpa [ownName, stands, ends] using split
          · simp [numbered, Path.fileStem?, Path.extension?, stands, ends, toString]
      | some ending =>
          refine ⟨(Path.splitExtension name).1, "." ++ ending, ?_, fun number => ?_⟩
          · simpa [ownName, stands, ends] using split
          · simp [numbered, Path.fileStem?, Path.extension?, stands, ends, String.append_assoc,
              toString]

theorem numbered_ne_ownName (file : Path) (number : Nat) : numbered file number ≠ ownName file := by
  obtain ⟨stem, ending, own, shape⟩ := exists_parts file
  intro same
  rw [own, shape, String.append_assoc] at same
  have same := congrArg String.toList same
  simp only [String.toList_append] at same
  have nothing := List.append_left_eq_self.mp (List.append_cancel_left same)
  rw [Nat.toList_repr] at nothing
  exact Nat.toDigits_ne_nil nothing

/-! ## The search for a number -/

theorem firstFree?_eq_some {names : ResourceNames} {file : Path} {tries number : Nat}
    {name : String} (found : names.firstFree? file tries number = some name) :
    ∃ step, name = numbered file (number + step) ∧ names.isTaken name = false ∧
      ∀ earlier, earlier < step → names.isTaken (numbered file (number + earlier)) = true := by
  induction tries generalizing number with
  | zero => cases found
  | succ tries induction =>
      rw [firstFree?] at found
      split at found
      · rename_i taken
        obtain ⟨step, same, free, before⟩ := induction found
        refine ⟨step + 1, ?_, free, ?_⟩
        · rw [same, Nat.add_right_comm, Nat.add_assoc]
        · intro earlier within
          cases earlier with
          | zero => exact taken
          | succ earlier =>
              have further := before earlier (by omega)
              rwa [Nat.add_right_comm, Nat.add_assoc] at further
      · rename_i free
        cases found
        exact ⟨0, rfl, Bool.eq_false_iff.mpr free, fun _ impossible => absurd impossible (by omega)⟩

/-- Where the own name of a file is taken, a free number is found. It is not larger than the count
of the names by more than one, for the own name is none of the numbered ones. -/
theorem exists_firstFree? {names : ResourceNames} {file : Path}
    (taken : names.isTaken (ownName file) = true) :
    ∃ number, 2 ≤ number ∧ number ≤ names.entries.length + 1 ∧
      names.firstFree? file (names.entries.length + 1) 2 = some (numbered file number) ∧
      names.isTaken (numbered file number) = false ∧
      ∀ smaller, 2 ≤ smaller → smaller < number →
        names.isTaken (numbered file smaller) = true := by
  cases found : names.firstFree? file (names.entries.length + 1) 2 with
  | none => exact absurd found (names.firstFree?_ne_none file 2)
  | some name =>
      obtain ⟨step, rfl, free, before⟩ := firstFree?_eq_some found
      let passed := (List.range step).map fun earlier => numbered file (2 + earlier)
      have distinct : (ownName file :: passed).Nodup := by
        refine List.nodup_cons.mpr ⟨?_, ?_⟩
        · intro member
          obtain ⟨earlier, _, same⟩ := List.mem_map.mp member
          exact numbered_ne_ownName file _ same
        · refine List.Nodup.map ?_ List.nodup_range
          intro left right same
          have same := numbered_injective file same
          omega
      have subset : ownName file :: passed ⊆ names.entries.map Prod.snd := by
        intro other member
        rcases List.mem_cons.mp member with rfl | member
        · exact isTaken_iff.mp taken
        · obtain ⟨earlier, within, rfl⟩ := List.mem_map.mp member
          exact isTaken_iff.mp (before earlier (List.mem_range.mp within))
      have few := (List.subperm_of_subset distinct subset).length_le
      simp only [passed, List.length_cons, List.length_map, List.length_range] at few
      refine ⟨2 + step, by omega, by omega, rfl, free, ?_⟩
      intro smaller atLeast below
      obtain ⟨earlier, rfl⟩ := Nat.exists_eq_add_of_le atLeast
      exact before earlier (by omega)

/-! ## One call -/

def originals (names : ResourceNames) : List (List Path.Component) :=
  names.entries.map fun entry => entry.1.components

theorem name?_eq_none_iff {names : ResourceNames} {file : Path} :
    names.name? file = none ↔ file.components ∉ names.originals := by
  rw [name?, Option.map_eq_none_iff, List.find?_eq_none, originals, List.mem_map]
  constructor
  · rintro none ⟨entry, member, same⟩
    exact none entry member (Path.same_iff.mpr same)
  · intro absent entry member same
    exact absent ⟨entry, member, Path.same_iff.mp same⟩

theorem name?_congr {left right : Path} (same : left.components = right.components)
    (names : ResourceNames) : names.name? left = names.name? right := by
  have sameTest (path : Path) : path.same left = path.same right := by
    rw [Path.same, Path.same, same]
  simp only [name?, sameTest]

theorem find?_insertByPath (entry : Path × String) {entries : List (Path × String)}
    (new : entry.1.components ∉ entries.map fun other => other.1.components) (file : Path) :
    (insertByPath entry entries).find? (fun other => other.1.same file) =
      if entry.1.same file then some entry
      else entries.find? fun other => other.1.same file := by
  induction entries with
  | nil =>
      rw [insertByPath, List.find?_cons]
      cases entry.1.same file <;> rfl
  | cons other rest induction =>
      rw [insertByPath]
      split
      · rw [List.find?_cons]
        cases entry.1.same file <;> rfl
      · have others := induction fun member => new (List.mem_cons_of_mem _ member)
        rw [List.find?_cons, List.find?_cons, others]
        cases same : other.1.same file with
        | false => rfl
        | true =>
            have different : entry.1.same file = false := by
              rw [← Bool.not_eq_true, Path.same_iff]
              intro alike
              have twice := alike.trans (Path.same_iff.mp same).symm
              exact new (List.mem_map.mpr ⟨other, List.mem_cons_self, twice.symm⟩)
            rw [different]
            rfl

theorem give_of_known {names : ResourceNames} {file : Path} {name : String}
    (known : names.name? file = some name) : names.give file = (name, names) := by
  rw [give, known]

theorem give_of_new {names : ResourceNames} {file : Path} (new : names.name? file = none) :
    names.give file =
      (names.freeName file, ⟨insertByPath (file, names.freeName file) names.entries⟩) := by
  rw [give, new]

/-- After a call the file has the name that was returned, and every other file the name it had. -/
theorem name?_give (names : ResourceNames) (file other : Path) :
    (names.give file).2.name? other =
      if file.same other then some (names.give file).1 else names.name? other := by
  cases known : names.name? file with
  | some name =>
      rw [give_of_known known]
      split
      · rename_i same
        rw [← name?_congr (Path.same_iff.mp same), known]
      · rfl
  | none =>
      have found := find?_insertByPath (file, names.freeName file)
        (name?_eq_none_iff.mp known) other
      rw [give_of_new known, name?, found]
      split <;> rfl

theorem mem_originals_give {names : ResourceNames} {file : Path} {parts : List Path.Component} :
    parts ∈ (names.give file).2.originals ↔ parts = file.components ∨ parts ∈ names.originals := by
  cases known : names.name? file with
  | some name =>
      have present : file.components ∈ names.originals := by
        by_contra absent
        rw [name?_eq_none_iff.mpr absent] at known
        cases known
      rw [give_of_known known]
      constructor
      · exact .inr
      · rintro (rfl | member)
        · exact present
        · exact member
  | none =>
      have same := perm_insertByPath (file, names.freeName file) names.entries
      rw [give_of_new known, originals, (same.map _).mem_iff, List.map_cons, List.mem_cons]
      rfl

structure IsTidy (names : ResourceNames) : Prop extends Apart names where
  oneEach : names.originals.Nodup

theorem isTidy_empty : IsTidy .empty := ⟨apart_empty, .nil⟩

theorem IsTidy.give {names : ResourceNames} (tidy : names.IsTidy) (file : Path) :
    (names.give file).2.IsTidy := by
  refine ⟨tidy.toApart.give file, ?_⟩
  cases known : names.name? file with
  | some name =>
      rw [give_of_known known]
      exact tidy.oneEach
  | none =>
      have same := perm_insertByPath (file, names.freeName file) names.entries
      rw [give_of_new known, originals, (same.map _).nodup_iff, List.map_cons]
      exact List.nodup_cons.mpr ⟨name?_eq_none_iff.mp known, tidy.oneEach⟩

theorem length_give_le (names : ResourceNames) (file : Path) :
    (names.give file).2.entries.length ≤ names.entries.length + 1 := by
  cases known : names.name? file with
  | some name =>
      rw [give_of_known known]
      exact Nat.le_succ _
  | none =>
      have same := perm_insertByPath (file, names.freeName file) names.entries
      rw [give_of_new known]
      exact Nat.le_of_eq same.length_eq

theorem Apart.components_eq {names : ResourceNames} (apart : names.Apart) {left right : Path}
    {name : String} (leftNamed : names.name? left = some name)
    (rightNamed : names.name? right = some name) : left.components = right.components := by
  rw [name?, Option.map_eq_some_iff] at leftNamed rightNamed
  obtain ⟨one, foundOne, isName⟩ := leftNamed
  obtain ⟨two, foundTwo, sameName⟩ := rightNamed
  have same : one = two :=
    List.inj_on_of_nodup_map apart.distinct (List.mem_of_find?_eq_some foundOne)
      (List.mem_of_find?_eq_some foundTwo) (isName.trans sameName.symm)
  subst same
  have toLeft : one.1.same left = true := by simpa using List.find?_some foundOne
  have toRight : one.1.same right = true := by simpa using List.find?_some foundTwo
  exact (Path.same_iff.mp toLeft).symm.trans (Path.same_iff.mp toRight)

theorem name?_give_of_known {names : ResourceNames} {other : Path} {name : String}
    (known : names.name? other = some name) (file : Path) :
    (names.give file).2.name? other = some name := by
  rw [name?_give]
  split
  · rename_i same
    rw [← name?_congr (Path.same_iff.mp same)] at known
    rw [give_of_known known]
  · exact known

/-! ## Calls one after the other -/

def exposeEach (files : FileTree) (base : Path) (paths : List String) :
    StateM ResourceNames (List String) :=
  paths.mapM (expose files base)

section

variable {files : FileTree} {base : Path}

theorem run_expose_empty (files : FileTree) (base : Path) (names : ResourceNames) :
    expose files base "" names = ("", names) := by
  rw [expose, if_pos rfl]

theorem run_expose {path : String} (notEmpty : path ≠ "") (names : ResourceNames) :
    expose files base path names = names.give (resolve files base path) := by
  rw [expose, if_neg notEmpty]

theorem run_exposeEach_cons (path : String) (rest : List String) (names : ResourceNames) :
    (exposeEach files base (path :: rest)).run names =
      let first := expose files base path names
      let others := (exposeEach files base rest).run first.2
      (first.1 :: others.1, others.2) := by
  rw [exposeEach, List.mapM_cons]
  rfl

theorem run_exposeEach_append (front back : List String) (names : ResourceNames) :
    ((exposeEach files base (front ++ back)).run names).2 =
      ((exposeEach files base back).run ((exposeEach files base front).run names).2).2 := by
  induction front generalizing names with
  | nil => rfl
  | cons path rest induction =>
      rw [List.cons_append, run_exposeEach_cons, run_exposeEach_cons]
      exact induction _

/-- What calls for paths return and leave: each path that is not empty gets the name that its file
has from then on, and only the files of such paths are recorded. -/
structure Exposed (files : FileTree) (base : Path) (paths results : List String)
    (before after : ResourceNames) : Prop where
  tidy : after.IsTidy
  kept : ∀ file name, before.name? file = some name → after.name? file = some name
  named : List.Forall₂ (fun path result =>
    if path = "" then result = "" else after.name? (resolve files base path) = some result)
    paths results
  recorded : ∀ parts, parts ∈ after.originals ↔ parts ∈ before.originals ∨
    ∃ path ∈ paths, path ≠ "" ∧ (resolve files base path).components = parts
  counted : after.entries.length ≤ before.entries.length + paths.length

theorem exposed_expose (files : FileTree) (base : Path) {names : ResourceNames}
    (tidy : names.IsTidy) (path : String) :
    Exposed files base [path] [(expose files base path names).1] names
      (expose files base path names).2 := by
  by_cases empty : path = ""
  · subst empty
    rw [run_expose_empty]
    exact ⟨tidy, fun _ _ known => known, .cons (by simp) .nil, by simp, Nat.le_succ _⟩
  · rw [run_expose empty]
    constructor
    · exact tidy.give _
    · intro file name known
      exact name?_give_of_known known _
    · refine .cons ?_ .nil
      rw [if_neg empty, name?_give, if_pos (Path.same_iff.mpr rfl)]
    · intro parts
      rw [mem_originals_give]
      simp [empty, eq_comm, or_comm]
    · exact length_give_le names _

theorem Exposed.cons {path result : String} {rest results : List String}
    {before between after : ResourceNames}
    (first : Exposed files base [path] [result] before between)
    (others : Exposed files base rest results between after) :
    Exposed files base (path :: rest) (result :: results) before after := by
  constructor
  · exact others.tidy
  · intro file name known
    exact others.kept file name (first.kept file name known)
  · refine .cons ?_ others.named
    have named := (List.forall₂_cons.mp first.named).1
    split at named
    · rename_i empty
      rw [if_pos empty, named]
    · rename_i notEmpty
      rw [if_neg notEmpty]
      exact others.kept _ _ named
  · intro parts
    rw [others.recorded, first.recorded]
    simp [or_assoc]
  · have one := first.counted
    have more := others.counted
    simp only [List.length_cons, List.length_nil] at one more ⊢
    omega

theorem exposed_exposeEach (files : FileTree) (base : Path) {names : ResourceNames}
    (tidy : names.IsTidy) (paths : List String) :
    Exposed files base paths ((exposeEach files base paths).run names).1 names
      ((exposeEach files base paths).run names).2 := by
  induction paths generalizing names with
  | nil =>
      have nothing : (exposeEach files base []).run names = ([], names) := rfl
      rw [nothing]
      exact ⟨tidy, fun _ _ known => known, .nil, by simp, Nat.le_refl _⟩
  | cons path rest induction =>
      have first := exposed_expose files base tidy path
      rw [run_exposeEach_cons]
      exact first.cons (induction first.tidy)

/-! ## Calls on no names -/

/-- What holds of the names that paths are given, starting with none. -/
structure NamesFiles (files : FileTree) (base : Path) (paths results : List String)
    (names : ResourceNames) : Prop where
  answered : results.length = paths.length
  /-- Two paths get one name exactly if they lead to one file. -/
  apart : ∀ (i j : Nat) (left right : String), paths[i]? = some left → paths[j]? = some right →
    left ≠ "" → right ≠ "" →
    (results[i]? = results[j]? ↔
      (resolve files base left).same (resolve files base right) = true)
  unchanged : ∀ i : Nat, paths[i]? = some "" → results[i]? = some ""
  recorded : ∀ (i : Nat) (path : String), paths[i]? = some path → path ≠ "" →
    names.name? (resolve files base path) = results[i]?
  /-- A name that a file had after the first calls is the name that it has in the end. -/
  stable : ∀ front back, paths = front ++ back → ∀ file name,
    ((exposeEach files base front).run .empty).2.name? file = some name →
      names.name? file = some name
  oneEach : names.originals.Nodup
  originals : ∀ parts, parts ∈ names.originals ↔
    ∃ path ∈ paths, path ≠ "" ∧ (resolve files base path).components = parts
  component : ∀ entry ∈ names.entries, (Path.mk entry.2).components = [.name entry.2]
  /-- Whenever the own name of a file is taken, the file gets the first number whose name is free,
  and the numbers up to that one have no more than 31 bits. -/
  numbered : ∀ front path back, paths = front ++ path :: back → ∀ earlier,
    ((exposeEach files base front).run .empty).2 = earlier → ∀ file,
    earlier.isTaken (ownName file) = true →
    ∃ number, 2 ≤ number ∧ number < 0x80000000 ∧
      earlier.firstFree? file (earlier.entries.length + 1) 2 = some (numbered file number) ∧
      earlier.freeName file = numbered file number ∧
      earlier.isTaken (numbered file number) = false ∧
      ∀ smaller, 2 ≤ smaller → smaller < number →
        earlier.isTaken (numbered file smaller) = true

theorem Exposed.results_eq {paths results : List String} {before after : ResourceNames}
    (exposed : Exposed files base paths results before after) {i : Nat} {path : String}
    (asked : paths[i]? = some path) :
    ∃ result, results[i]? = some result ∧
      if path = "" then result = ""
      else after.name? (resolve files base path) = some result := by
  have named := exposed.named
  clear exposed
  induction named generalizing i with
  | nil => cases asked
  | cons first _ induction =>
      cases i with
      | zero =>
          cases asked
          exact ⟨_, rfl, first⟩
      | succ i => exact induction asked

/-- Exposing fewer than `2 ^ 31` paths gives each file one name, which is its own and stays. -/
theorem exposeEach_namesFiles {paths results : List String} {names : ResourceNames}
    (few : paths.length < 0x80000000)
    (ran : (exposeEach files base paths).run .empty = (results, names)) :
    NamesFiles files base paths results names := by
  have exposed := exposed_exposeEach files base isTidy_empty paths
  rw [ran] at exposed
  have given {i : Nat} {path : String} (asked : paths[i]? = some path) (notEmpty : path ≠ "") :
      ∃ result, results[i]? = some result ∧
        names.name? (resolve files base path) = some result := by
    obtain ⟨result, isResult, named⟩ := exposed.results_eq asked
    rw [if_neg notEmpty] at named
    exact ⟨result, isResult, named⟩
  constructor
  · exact exposed.named.length_eq.symm
  · intro i j left right askedLeft askedRight leftNotEmpty rightNotEmpty
    obtain ⟨one, isOne, oneNamed⟩ := given askedLeft leftNotEmpty
    obtain ⟨two, isTwo, twoNamed⟩ := given askedRight rightNotEmpty
    rw [isOne, isTwo, Path.same_iff]
    constructor
    · intro same
      obtain rfl := Option.some.inj same
      exact exposed.tidy.components_eq oneNamed twoNamed
    · intro same
      rw [← oneNamed, ← twoNamed, name?_congr same]
  · intro i asked
    obtain ⟨result, isResult, empty⟩ := exposed.results_eq asked
    rw [if_pos rfl] at empty
    rw [isResult, empty]
  · intro i path asked notEmpty
    obtain ⟨result, isResult, named⟩ := given asked notEmpty
    rw [named, isResult]
  · intro front back split file name known
    -- The names after the first calls are what the other calls start with.
    have first := exposed_exposeEach files base isTidy_empty front
    have others := exposed_exposeEach files base first.tidy back
    rw [← run_exposeEach_append, ← split, ran] at others
    exact others.kept file name known
  · exact exposed.tidy.oneEach
  · intro parts
    have recorded := exposed.recorded parts
    simpa [ResourceNames.originals, ResourceNames.empty] using recorded
  · intro entry member
    exact (exposed.tidy.named entry member).components
  · intro front path back split earlier isEarlier file taken
    have first := exposed_exposeEach files base isTidy_empty front
    rw [isEarlier] at first
    have counted := first.counted
    have shorter := congrArg List.length split
    rw [List.length_append, List.length_cons] at shorter
    obtain ⟨number, atLeast, atMost, found, free, before⟩ := exists_firstFree? taken
    refine ⟨number, atLeast, ?_, found, ?_, free, before⟩
    · have none : ResourceNames.empty.entries.length = 0 := rfl
      omega
    · have isTaken : earlier.isTaken (file.fileName?.getD unnamed) = true := taken
      rw [freeName, if_pos isTaken, found, Option.getD_some]

def picturesLinked : FileTree :=
  ⟨[(["game"], .directory), (["game", "art"], .directory), (["game", "art", "hero.png"], .file [1]),
    (["game", "pictures"], .link ⟨"art"⟩)], []⟩

/-- Two pictures of one name, each of them exposed twice, and a file whose name is that of the
second picture. The first picture is there and is met once through a link, the others are
missing. -/
theorem exposeEach_namesFiles_heroes :
    (resolve picturesLinked ⟨"/game"⟩ "pictures/hero.png").text = "/game/art/hero.png" ∧
      ∃ names, NamesFiles picturesLinked ⟨"/game"⟩
        ["art/hero.png", "b/hero.png", "", "pictures/hero.png", "b//hero.png", "c/hero2.png"]
        ["hero.png", "hero2.png", "", "hero.png", "hero2.png", "hero22.png"] names := by
  have given : ((exposeEach picturesLinked ⟨"/game"⟩
      ["art/hero.png", "b/hero.png", "", "pictures/hero.png", "b//hero.png", "c/hero2.png"]).run
        .empty).1 =
      ["hero.png", "hero2.png", "", "hero.png", "hero2.png", "hero22.png"] := by
    decide +kernel
  exact ⟨by decide +kernel, _, exposeEach_namesFiles (by decide) (Prod.ext given rfl)⟩

end

end ResourceNames

end GameExport
