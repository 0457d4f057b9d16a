import GameExport.Json.Decoder

/-! # Target platforms

The platforms a game can be exported for, sets of them, and the systems the tool runs on.
A set is three independent flags, so inserting is idempotent and order does not matter.
-/

namespace GameExport

inductive Target
  | windows
  | linux
  | mac
  deriving DecidableEq, Repr

namespace Target

def all : List Target := [.windows, .linux, .mac]

def name : Target → String
  | .windows => "windows"
  | .linux => "linux"
  | .mac => "mac"

def ofName? (name : String) : Option Target := all.find? fun target => target.name == name

theorem ofName?_name (target : Target) : ofName? target.name = some target := by
  cases target <;> decide

/-- Whether the platform has self-extracting executables. -/
def supportsCompression : Target → Bool
  | .windows => true
  | .linux => false
  | .mac => false

def decode : Json.Decoder Target := Json.Decoder.choice ofName?

end Target

structure TargetSet where
  windows : Bool
  linux : Bool
  mac : Bool
  deriving DecidableEq, Repr

namespace TargetSet

def empty : TargetSet := ⟨false, false, false⟩

def contains (set : TargetSet) : Target → Bool
  | .windows => set.windows
  | .linux => set.linux
  | .mac => set.mac

def insert (set : TargetSet) : Target → TargetSet
  | .windows => { set with windows := true }
  | .linux => { set with linux := true }
  | .mac => { set with mac := true }

def only (target : Target) : TargetSet := empty.insert target

def ofList (targets : List Target) : TargetSet := targets.foldl insert empty

def toList (set : TargetSet) : List Target := Target.all.filter set.contains

def isEmpty (set : TargetSet) : Bool := !set.windows && !set.linux && !set.mac

theorem contains_insert (set : TargetSet) (target other : Target) :
    (set.insert target).contains other = (set.contains other || decide (other = target)) := by
  cases target <;> cases other <;> simp [insert, contains]

theorem mem_toList {set : TargetSet} {target : Target} :
    target ∈ set.toList ↔ set.contains target = true := by
  cases target <;> simp [toList, Target.all]

def toJson (set : TargetSet) : Json :=
  .object [("windows", .bool set.windows), ("linux", .bool set.linux), ("mac", .bool set.mac)]

/-- A set from a document; a missing flag is off. -/
def decode : Json.Decoder TargetSet
  | room + 1, source => do
      match ← source.record? ["windows", "linux", "mac"] with
      | [windows, linux, mac] =>
          pure {
            windows := ← Json.fieldOr false Json.Decoder.flag room windows
            linux := ← Json.fieldOr false Json.Decoder.flag room linux
            mac := ← Json.fieldOr false Json.Decoder.flag room mac }
      | _ => none
  | _, _ => none

end TargetSet

inductive Host
  | linux
  | mac
  | windows
  deriving DecidableEq, Repr

namespace Host

def current : Host := .linux

def name : Host → String
  | .linux => "linux"
  | .mac => "macos"
  | .windows => "windows"

def nativeTarget : Host → Target
  | .linux => .linux
  | .mac => .mac
  | .windows => .windows

def defaultTargets : TargetSet := TargetSet.only current.nativeTarget

end Host

end GameExport
