import GameExport.Package.Files
import GameExport.Proofs.FileTree.Opening
import Mathlib.Data.List.Forall2

/-! # Joining files

A part that is not the output keeps what it holds while the output is written. Main statement: what
has been joined is the contents of the parts that can be opened, one after the other, and each of
the others has been reported, in order.
-/

namespace GameExport

open FileTree

namespace Package

/-- Whether a file that has been joined holds the contents of the parts that can be opened, in
order, and exactly the others are reported, in order. -/
structure Joins (files : FileTree) (parts : List Path) (joined : Bytes)
    (skipped : List PackageError) : Prop where
  content : ∃ contents,
    List.Forall₂ (fun part content => files.read part = .ok content)
      (parts.filter fun part => files.pathExists part) contents ∧ joined = contents.flatten
  report : List.Forall₂ (fun part error => ∃ cause, error = .io part cause)
    (parts.filter fun part => !files.pathExists part) skipped

variable {files : FileTree} {output : Path} {location : Location}

theorem joins_nil (files : FileTree) : Joins files [] [] [] :=
  ⟨⟨[], .nil, rfl⟩, .nil⟩

theorem Joins.add {parts : List Path} {joined : Bytes} {skipped : List PackageError}
    (joins : Joins files parts joined skipped) {part : Path} {content : Bytes}
    (reads : files.read part = .ok content) :
    Joins files (part :: parts) (content ++ joined) skipped := by
  have opens : files.pathExists part = true :=
    pathExists_iff_status.mpr ⟨_, read_eq_ok_iff_status.mp reads⟩
  rcases joins with ⟨⟨contents, each, rfl⟩, report⟩
  constructor
  · refine ⟨content :: contents, ?_, rfl⟩
    rw [List.filter_cons_of_pos opens]
    exact .cons reads each
  · rwa [List.filter_cons_of_neg (by simp [opens])]

theorem Joins.skip {parts : List Path} {joined : Bytes} {skipped : List PackageError}
    (joins : Joins files parts joined skipped) {part : Path}
    (closed : ¬ files.pathExists part = true) (cause : FileError) :
    Joins files (part :: parts) joined (.io part cause :: skipped) := by
  rcases joins with ⟨content, report⟩
  constructor
  · rwa [List.filter_cons_of_neg closed]
  · rw [List.filter_cons_of_pos (by simpa using closed)]
    exact .cons ⟨cause, rfl⟩ report

theorem joins_of_appendParts {after : FileTree} {parts : List Path} {done : Bytes}
    {skipped : List PackageError} (leaf : files.LeafAt location)
    (apart : ∀ part ∈ parts, ¬ files.LeadsTo part location)
    (adds : appendParts (files.put location (.file done)) output location parts =
      (after, .ok skipped)) :
    ∃ joined, after = files.put location (.file (done ++ joined)) ∧
      Joins files parts joined skipped := by
  induction parts generalizing done skipped with
  | nil =>
      cases adds
      exact ⟨[], by rw [List.append_nil], joins_nil files⟩
  | cons part rest induction =>
      have others := fun other member => apart other (List.mem_cons_of_mem part member)
      have same {node : Node} : (files.put location (.file done)).status part = .ok node ↔
          files.status part = .ok node :=
        status_eq_ok_of_differAt (leaf.differAt_put done) (apart part List.mem_cons_self)
      rw [appendParts] at adds
      split at adds
      · rename_i cause fails
        have closed : ¬ files.pathExists part = true := by
          intro opens
          rcases pathExists_iff_status.mp opens with ⟨node, stands⟩
          rw [same.mpr stands] at fails
          cases fails
        generalize outcome : appendParts (files.put location (.file done)) output location rest =
          added at adds
        rcases added with ⟨final, result⟩
        cases result with
        | error error => cases adds
        | ok reported =>
            cases adds
            rcases induction others outcome with ⟨joined, puts, joins⟩
            exact ⟨joined, puts, joins.skip closed cause⟩
      · rename_i content stands
        rw [append_put leaf.ne_nil] at adds
        rcases induction others adds with ⟨joined, puts, joins⟩
        have reads := read_eq_ok_iff_status.mpr (same.mp stands)
        exact ⟨content ++ joined, by rw [puts, List.append_assoc], joins.add reads⟩
      · cases adds

/-- Joining files that succeeds has written the contents of the parts that can be opened, in order,
and reports exactly the others, in order, if none of the parts is the output. -/
theorem joins_of_concatenate (rooted : files.Rooted) {parts : List Path} {after : FileTree}
    {skipped : List PackageError}
    (apart : ∀ part ∈ parts, files.WritesApart output part)
    (done : concatenate files output parts = (after, .ok skipped)) :
    ∃ location joined, files.writable output = .ok location ∧
      after = files.put location (.file joined) ∧ after.read output = .ok joined ∧
      Joins files parts joined skipped := by
  rw [concatenate] at done
  split at done
  · cases done
  · rename_i location opens
    have leaf := ((writable_eq_ok_iff rooted).mp opens).2
    rcases joins_of_appendParts leaf (fun part member => apart part member location opens) done with
      ⟨joined, rfl, joins⟩
    exact ⟨location, joined, opens, rfl, read_put rooted opens joined, joins⟩

end Package

end GameExport
