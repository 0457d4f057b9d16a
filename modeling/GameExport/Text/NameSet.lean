/-! # Sets of names

A set of names is the list of its names in increasing order, so equal sets are equal lists.
Main statement: inserting a name adds that name and nothing else.
-/

namespace GameExport

structure NameSet where
  toList : List String
  increasing : toList.Pairwise (· < ·)
  deriving Repr

namespace NameSet

def empty : NameSet := ⟨[], .nil⟩

instance : Inhabited NameSet := ⟨empty⟩

@[ext] theorem ext {left right : NameSet} (same : left.toList = right.toList) : left = right := by
  cases left; cases right; cases same; rfl

instance : DecidableEq NameSet := fun left right =>
  if same : left.toList = right.toList then isTrue (ext same)
  else isFalse fun equal => same (congrArg toList equal)

instance : Membership String NameSet := ⟨fun set name => name ∈ set.toList⟩

instance (name : String) (set : NameSet) : Decidable (name ∈ set) :=
  inferInstanceAs (Decidable (name ∈ set.toList))

theorem mem_def {name : String} {set : NameSet} : name ∈ set ↔ name ∈ set.toList := Iff.rfl

def place (name : String) : List String → List String
  | [] => [name]
  | other :: rest =>
      if name < other then name :: other :: rest
      else if name = other then other :: rest
      else other :: place name rest

theorem mem_place {name sought : String} {names : List String} :
    sought ∈ place name names ↔ sought = name ∨ sought ∈ names := by
  induction names with
  | nil => simp [place]
  | cons other rest induction =>
      unfold place
      split
      · simp
      · split
        · simp_all
        · simp [induction]; grind

theorem increasing_place {name : String} {names : List String}
    (increasing : names.Pairwise (· < ·)) : (place name names).Pairwise (· < ·) := by
  induction names with
  | nil => simp [place]
  | cons other rest induction =>
      unfold place
      split
      · rename_i before
        refine List.pairwise_cons.mpr ⟨fun later member => ?_, increasing⟩
        rcases List.mem_cons.mp member with rfl | member
        · exact before
        · exact String.lt_trans before ((List.pairwise_cons.mp increasing).1 later member)
      · split
        · exact increasing
        · obtain ⟨first, tail⟩ := List.pairwise_cons.mp increasing
          refine List.pairwise_cons.mpr ⟨fun later member => ?_, induction tail⟩
          rcases mem_place.mp member with rfl | member
          · grind
          · exact first later member

def insert (set : NameSet) (name : String) : NameSet :=
  ⟨place name set.toList, increasing_place set.increasing⟩

def ofList (names : List String) : NameSet := names.foldl insert empty

def isEmpty (set : NameSet) : Bool := set.toList.isEmpty

theorem mem_insert {set : NameSet} {name sought : String} :
    sought ∈ set.insert name ↔ sought = name ∨ sought ∈ set := mem_place

theorem mem_foldl_insert {names : List String} {set : NameSet} {sought : String} :
    sought ∈ names.foldl insert set ↔ sought ∈ set ∨ sought ∈ names := by
  induction names generalizing set with
  | nil => simp
  | cons name rest induction => simp [induction, mem_insert]; grind

theorem mem_ofList {names : List String} {sought : String} :
    sought ∈ ofList names ↔ sought ∈ names := by
  have nothing : sought ∉ empty := by simp [mem_def, empty]
  rw [ofList, mem_foldl_insert]
  simp [nothing]

end NameSet

end GameExport
