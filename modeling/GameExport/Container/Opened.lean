import GameExport.Container.Basic

/-! # Opened containers

An opened container is kept as it was read: all its bytes, the lines of its manifest, and where the
blob of each line starts. Places and sizes are machine words here, so a sum can be too large for a
word and a place can lie outside of the bytes; either would stop the program. That every blob lies
inside the bytes is checked once, when the container is opened. Reading a blob adds up its end
again without a check.
-/

namespace GameExport.Container

inductive Halt
  | refused (problem : ContainerProblem)
  | outOfRange
  | overflow
  deriving DecidableEq, Repr

def itemAt {α : Type} (items : List α) (place : Nat) : Except Halt α :=
  match items[place]? with
  | some item => .ok item
  | none => .error .outOfRange

def part? (bytes : Bytes) (start stop : Nat) : Option Bytes :=
  if start ≤ stop ∧ stop ≤ bytes.length then some ((bytes.drop start).take (stop - start))
  else none

def part (bytes : Bytes) (start stop : Nat) : Except Halt Bytes :=
  match part? bytes start stop with
  | some found => .ok found
  | none => .error .outOfRange

def numberAt (bytes : Bytes) (place : Nat) : Except Halt Nat := do
  .ok (Bytes.ofLittleEndian (← (List.range' place 4).mapM (itemAt bytes)))

def addWords (left right : USize) : Except Halt USize :=
  if left.toNat + right.toNat < USize.size then .ok (left + right) else .error .overflow

def addSizes (left right : UInt64) : Except Halt UInt64 :=
  if left.toNat + right.toNat < UInt64.size then .ok (left + right) else .error .overflow

def wordOf? (size : UInt64) : Option USize :=
  if size.toNat < USize.size then some size.toUSize else none

def endWithin? (limit : Nat) (start size : USize) : Option USize :=
  if start.toNat + size.toNat < USize.size ∧ start.toNat + size.toNat ≤ limit then
    some (start + size)
  else none

def lineOf (line : String × Nat) : String × UInt64 := (line.1, UInt64.ofNat line.2)

/-- Where the blobs of lines start, the first one at a place. Each has to end within the limit. -/
def placesOf (limit : Nat) : (start : USize) → List (String × UInt64) → Except Halt (List USize)
  | _, [] => .ok []
  | start, (name, size) :: rest =>
      match (wordOf? size).bind (endWithin? limit start) with
      | none => .error (.refused (.truncatedBlob name))
      | some stop => do .ok (start :: (← placesOf limit stop rest))

structure Opened where
  lines : List (String × UInt64)
  data : Bytes
  places : List USize

namespace Opened

def ofBytes (bytes : Bytes) : Except Halt Opened := do
  if bytes.length < headerLength then .error (.refused .badMagic)
  else if (← part bytes 0 4) ≠ magic then .error (.refused .badMagic)
  else
    let found ← numberAt bytes 4
    if found ≠ version then .error (.refused (.unsupportedVersion found))
    else
      let length ← numberAt bytes 8
      match endWithin? bytes.length (USize.ofNat headerLength) (USize.ofNat length) with
      | none => .error (.refused .truncatedManifest)
      | some stop =>
          match readManifest? (← part bytes headerLength stop.toNat) with
          | none => .error (.refused .malformedManifest)
          | some sizes =>
              let lines := sizes.map lineOf
              .ok ⟨lines, bytes, ← placesOf bytes.length stop lines⟩

def read (opened : Opened) (name : String) : Except Halt (Option Bytes) :=
  match opened.lines.findIdx? fun line => line.1 == name with
  | none => .ok none
  | some index => do
      let start ← itemAt opened.places index
      let line ← itemAt opened.lines index
      let stop ← addWords start line.2.toUSize
      .ok (part? opened.data start.toNat stop.toNat)

def total (opened : Opened) : Except Halt UInt64 :=
  opened.lines.foldlM (fun total line => addSizes total line.2) 0

end Opened

end GameExport.Container
