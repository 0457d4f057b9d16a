import GameExport.Proofs.FileTree.Writing

/-! # Paths of what stands in a directory

The path of an entry is the path of its directory and a name. Main statement: such a path leads
to the place of that name in the directory that the other path leads to.
-/

namespace GameExport

structure IsName (name : String) : Prop where
  notEmpty : name ≠ ""
  notHere : name ≠ "."
  notParent : name ≠ ".."
  noSlash : '/' ∉ name.toList

instance (name : String) : Decidable (IsName name) :=
  decidable_of_iff (name ≠ "" ∧ name ≠ "." ∧ name ≠ ".." ∧ '/' ∉ name.toList)
    ⟨fun ⟨notEmpty, notHere, notParent, noSlash⟩ => ⟨notEmpty, notHere, notParent, noSlash⟩,
      fun ⟨notEmpty, notHere, notParent, noSlash⟩ => ⟨notEmpty, notHere, notParent, noSlash⟩⟩

theorem IsName.toList_ne_nil {name : String} (isName : IsName name) : name.toList ≠ [] := by
  intro none
  exact isName.notEmpty (String.toList_eq_nil_iff.mp none)

theorem IsName.not_isAbsolute {name : String} (isName : IsName name) :
    ¬ (Path.mk name).isAbsolute = true := by
  intro absolute
  have first : name.toList.head? = some '/' := by simpa [Path.isAbsolute] using absolute
  exact isName.noSlash (List.mem_of_head? first)

theorem mem_splitOn {separator : Char} {text part : List Char}
    (member : part ∈ text.splitOn separator) :
    separator ∉ part ∧ ∀ letter ∈ part, letter ∈ text := by
  induction text generalizing part with
  | nil =>
      rw [List.splitOn_nil] at member
      rw [List.mem_singleton.mp member]
      simp
  | cons first rest induction =>
      have wider {other : List Char} (held : separator ∉ other ∧ ∀ letter ∈ other, letter ∈ rest) :
          separator ∉ other ∧ ∀ letter ∈ other, letter ∈ first :: rest :=
        ⟨held.1, fun letter among => List.mem_cons_of_mem _ (held.2 letter among)⟩
      rw [List.splitOn_cons_eq_if_modifyHead] at member
      split at member
      · rcases List.mem_cons.mp member with rfl | member
        · simp
        · exact wider (induction member)
      · rename_i different
        cases parts : rest.splitOn separator with
        | nil => exact absurd parts (List.splitOn_ne_nil _ _)
        | cons head tail =>
            rw [parts, List.modifyHead_cons] at member
            rcases List.mem_cons.mp member with rfl | member
            · have held := induction (parts ▸ List.mem_cons_self)
              constructor
              · intro among
                rcases List.mem_cons.mp among with same | among
                · exact different (by simp [same])
                · exact held.1 among
              · intro letter among
                rcases List.mem_cons.mp among with same | among
                · exact same ▸ List.mem_cons_self
                · exact List.mem_cons_of_mem _ (held.2 letter among)
            · exact wider (induction (parts ▸ List.mem_cons_of_mem _ member))

namespace FileTree

/-! ## The text of a path -/

/-- The text of an entry's path: what comes before the last separator is the text of the
directory, up to a separator at its end. -/
theorem toList_child {directory : Path} (notEmpty : directory.text ≠ "") {name : String}
    (isName : IsName name) :
    ∃ front, (directory.child name).text.toList = front ++ '/' :: name.toList ∧
      (directory.text.toList = front ∨ directory.text.toList = front ++ ['/']) := by
  rw [Path.child, Path.join, if_neg isName.not_isAbsolute, if_neg notEmpty]
  split
  · rename_i ends
    rcases List.getLast?_eq_some_iff.mp ends with ⟨front, same⟩
    refine ⟨front, ?_, .inr same⟩
    rw [String.toList_append, same]
    simp
  · exact ⟨directory.text.toList, by simp, .inl rfl⟩

def stepsIn (text : List Char) : List String :=
  ((text.splitOn '/').map String.ofList).filter (· != "")

theorem steps_eq (path : Path) : steps path = stepsIn path.text.toList := rfl

theorem stepsIn_append (front back : List Char) :
    stepsIn (front ++ '/' :: back) = stepsIn front ++ stepsIn back := by
  rw [stepsIn, List.splitOn_append_cons_self, List.map_append, List.filter_append]
  rfl

theorem stepsIn_name {name : String} (isName : IsName name) : stepsIn name.toList = [name] := by
  rw [stepsIn, List.splitOn_eq_singleton isName.noSlash]
  simp [isName.notEmpty]

theorem steps_child {directory : Path} (notEmpty : directory.text ≠ "") {name : String}
    (isName : IsName name) : steps (directory.child name) = steps directory ++ [name] := by
  rcases toList_child notEmpty isName with ⟨front, text, same⟩
  have directorySteps : steps directory = stepsIn front := by
    rcases same with same | same
    · rw [steps_eq, same]
    · rw [steps_eq, same, stepsIn_append]
      exact List.append_nil _
  rw [steps_eq, text, stepsIn_append, stepsIn_name isName, directorySteps]

theorem endsOpen_child {directory : Path} (notEmpty : directory.text ≠ "") {name : String}
    (isName : IsName name) : endsOpen (directory.child name) = false := by
  rcases toList_child notEmpty isName with ⟨front, text, _⟩
  rw [endsOpen, text]
  have last : (front ++ '/' :: name.toList).getLast? = name.toList.getLast? := by
    cases same : name.toList with
    | nil => exact absurd same isName.toList_ne_nil
    | cons first rest => simp [List.getLast?_append, List.getLast?_cons]
  rw [last]
  have apart : name.toList.getLast? ≠ some '/' := by
    intro same
    exact isName.noSlash (List.mem_of_getLast? same)
  simpa using apart

theorem isAbsolute_child {directory : Path} (notEmpty : directory.text ≠ "") {name : String}
    (isName : IsName name) : (directory.child name).isAbsolute = directory.isAbsolute := by
  rcases toList_child notEmpty isName with ⟨front, text, same⟩
  have nonempty : directory.text.toList ≠ [] := by
    intro none
    exact notEmpty (String.toList_eq_nil_iff.mp none)
  rw [Path.isAbsolute, Path.isAbsolute, text]
  cases front with
  | nil =>
      rcases same with same | same
      · exact absurd same nonempty
      · rw [same]
        rfl
  | cons first rest =>
      rcases same with same | same
      · rw [same]
        rfl
      · rw [same]
        rfl

theorem Walkable.of_child {directory : Path} (notEmpty : directory.text ≠ "") {name : String}
    (isName : IsName name) (walkable : Walkable (directory.child name)) : Walkable directory := by
  have text : ∃ between, (directory.child name).text = directory.text ++ between := by
    rw [Path.child, Path.join, if_neg isName.not_isAbsolute, if_neg notEmpty]
    split
    · exact ⟨name, rfl⟩
    · exact ⟨"/" ++ name, String.append_assoc⟩
  rcases text with ⟨between, text⟩
  refine ⟨?_, notEmpty, ?_⟩
  · intro zero
    refine walkable.noZero ?_
    rw [text, String.toList_append]
    simp at zero ⊢
    exact .inl zero
  · intro long
    refine walkable.short ?_
    rw [text, String.utf8ByteSize_append]
    omega

/-! ## The last step -/

theorem Walks.inside {tree : FileTree} {purpose : Purpose} {links : Nat} {here : Location}
    {name : String} {rest : List String} {isOpen : Bool} {arrival : Arrival}
    (walks : Walks tree purpose links here (name :: rest) isOpen arrival) :
    tree.isDirectoryAt here = true := by
  cases walks with
  | stay inside => exact inside
  | up inside => exact inside
  | missing inside => exact inside
  | atLink inside => exact inside
  | along inside => exact inside
  | enter inside => exact inside

/-- A walk to an entry of a directory comes to the directory first, where a walk that looks at the
directory ends, wherever a separator stands. -/
theorem Walks.split {tree : FileTree} {purpose : Purpose} {links : Nat} {here : Location}
    {names : List String} {name : String} {isOpen : Bool} {arrival : Arrival}
    (isName : IsName name)
    (walks : Walks tree purpose links here (names ++ [name]) isOpen arrival) :
    ∃ fewer there, Walks tree purpose fewer there [name] isOpen arrival ∧
      ∀ flag, ∃ flag', Walks tree .target links here names flag ⟨there, flag'⟩ := by
  -- Only the last component is looked up for the purpose of the walk; those before it are a way.
  have asTarget {name : String} {rest others : List String} {isOpen flag : Bool}
      (named : Named purpose name rest isOpen) : Named .target name others flag :=
    ⟨named.notHere, named.notParent, fun refused => Purpose.noConfusion refused.1, named.short⟩
  generalize whole : names ++ [name] = all at walks
  induction walks generalizing names with
  | done => simp at whole
  | stay inside next induction =>
      rename_i links here rest isOpen arrival
      cases names with
      | nil => exact absurd (List.cons.inj whole).1 isName.notHere
      | cons first names =>
          rcases List.cons.inj whole with ⟨rfl, sameRest⟩
          rcases induction sameRest with ⟨fewer, there, last, walks⟩
          refine ⟨fewer, there, last, fun flag => ?_⟩
          rcases walks flag with ⟨flag', walks⟩
          exact ⟨flag', .stay inside walks⟩
  | up inside next induction =>
      rename_i links here rest isOpen arrival
      cases names with
      | nil => exact absurd (List.cons.inj whole).1 isName.notParent
      | cons first names =>
          rcases List.cons.inj whole with ⟨rfl, sameRest⟩
          rcases induction sameRest with ⟨fewer, there, last, walks⟩
          refine ⟨fewer, there, last, fun flag => ?_⟩
          rcases walks flag with ⟨flag', walks⟩
          exact ⟨flag', .up inside walks⟩
  | missing inside named free =>
      rename_i links here other isOpen
      cases names with
      | nil =>
          rcases List.cons.inj whole with ⟨rfl, _⟩
          exact ⟨links, here, .missing inside named free, fun flag => ⟨flag, .done⟩⟩
      | cons first names => simp at whole
  | atLink inside named taken stops =>
      rename_i links here other isOpen target
      cases names with
      | nil =>
          rcases List.cons.inj whole with ⟨rfl, _⟩
          exact ⟨links, here, .atLink inside named taken stops, fun flag => ⟨flag, .done⟩⟩
      | cons first names => simp at whole
  | along inside named taken follows next induction =>
      rename_i links here other rest isOpen target arrival
      cases names with
      | nil =>
          rcases List.cons.inj whole with ⟨rfl, rfl⟩
          exact ⟨links + 1, here, .along inside named taken follows next,
            fun flag => ⟨flag, .done⟩⟩
      | cons first names =>
          rcases List.cons.inj whole with ⟨rfl, sameRest⟩
          have further : rest.isEmpty = false := by simp [← sameRest]
          rw [further, Bool.false_and, Bool.or_false, ← sameRest] at induction
          rcases induction (List.append_assoc _ _ _) with ⟨fewer, there, last, walks⟩
          refine ⟨fewer, there, last, fun flag => ?_⟩
          rcases walks (flag || (names.isEmpty && endsOpen target)) with ⟨flag', walks⟩
          exact ⟨flag', .along inside (asTarget named) taken
            (fun stops => Bool.noConfusion stops.2) walks⟩
  | enter inside named taken noLink next induction =>
      rename_i links here other rest isOpen node arrival
      cases names with
      | nil =>
          rcases List.cons.inj whole with ⟨rfl, rfl⟩
          exact ⟨links, here, .enter inside named taken noLink next, fun flag => ⟨flag, .done⟩⟩
      | cons first names =>
          rcases List.cons.inj whole with ⟨rfl, sameRest⟩
          rcases induction sameRest with ⟨fewer, there, last, walks⟩
          refine ⟨fewer, there, last, fun flag => ?_⟩
          rcases walks flag with ⟨flag', walks⟩
          exact ⟨flag', .enter inside (asTarget named) taken noLink walks⟩

def Stops (tree : FileTree) (purpose : Purpose) (location : Location) : Prop :=
  purpose.follows false = false ∨ ∀ target, tree.node? location ≠ some (.link target)

theorem Walks.last {tree : FileTree} {purpose : Purpose} {links : Nat} {here : Location}
    {name : String} {arrival : Arrival} (isName : IsName name)
    (walks : Walks tree purpose links here [name] false arrival)
    (stops : tree.Stops purpose (here ++ [name])) : arrival = ⟨here ++ [name], false⟩ := by
  cases walks with
  | stay => exact absurd rfl isName.notHere
  | up => exact absurd rfl isName.notParent
  | missing => rfl
  | atLink => rfl
  | along inside named taken follows next =>
      rcases stops with stops | noLink
      · exact absurd ⟨rfl, stops⟩ follows
      · exact absurd taken (noLink _)
  | enter inside named taken noLink next =>
      cases next
      rfl

/-- The path of an entry leads to the place of its name in the directory. -/
theorem place_child {tree : FileTree} {purpose : Purpose} {directory : Path}
    (notEmpty : directory.text ≠ "") {name : String} (isName : IsName name) {arrival : Arrival}
    (arrives : tree.place purpose (directory.child name) = .ok arrival) :
    ∃ here, tree.find true directory = .ok (here, .directory) ∧
      (tree.Stops purpose (here ++ [name]) → arrival = ⟨here ++ [name], false⟩) := by
  rcases place_eq_ok_iff.mp arrives with ⟨walkable, walks⟩
  have sameOrigin : tree.origin (directory.child name) = tree.origin directory := by
    rw [origin, origin, isAbsolute_child notEmpty isName]
  rw [steps_child notEmpty isName, endsOpen_child notEmpty isName, sameOrigin] at walks
  rcases walks.split isName with ⟨fewer, here, last, looks⟩
  rcases looks (endsOpen directory) with ⟨flag, looks⟩
  have isDirectory : tree.node? here = some .directory := by
    simpa [isDirectoryAt] using last.inside
  refine ⟨here, ?_, last.last isName⟩
  exact find_eq_ok_iff.mpr ⟨flag, place_eq_ok_iff.mpr ⟨walkable.of_child notEmpty isName, looks⟩,
    isDirectory, by simp⟩

end FileTree

end GameExport
