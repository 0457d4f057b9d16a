import GameExport.Number.Single

/-! # Notices

What an export tells its host, in order: messages, how far it has come, errors, and at the end
whether it has succeeded. How far it has come is an exact fraction, which hosts see as a
32-bit percentage.
-/

namespace GameExport

inductive Progress
  | percent (value : Nat)
  /-- So many of all scenes are compiled: the first half. -/
  | scenes (done total : Nat)
  /-- So many of all resources are copied: the third quarter. -/
  | resources (done total : Nat)
  deriving DecidableEq, Repr

namespace Progress

def exact : Progress → Rat
  | .percent value => value
  | .scenes done total => (done : Rat) / total * 50
  | .resources done total => 50 + (done : Rat) / total * 25

/-- The pattern of the percentage as a host sees it, each step rounded. -/
def pattern (progress : Progress) : Nat :=
  let format := BinaryFormat.single
  let part (done total share : Nat) :=
    format.multiply (format.divide (format.ofNat done) (format.ofNat total)) (format.ofNat share)
  match progress with
  | .percent value => format.ofNat value
  | .scenes done total => part done total 50
  | .resources done total => format.add (format.ofNat 50) (part done total 25)

def single (progress : Progress) : Single := Single.ofPattern false progress.pattern

end Progress

inductive Notice (π : Type)
  | message (text : String) (detail : Option String)
  | progress (value : π)
  | error (text : String)
  | failed
  | succeeded
  | idle
  deriving DecidableEq, Repr

namespace Notice

def map {π ρ : Type} (change : π → ρ) : Notice π → Notice ρ
  | .message text detail => .message text detail
  | .progress value => .progress (change value)
  | .error text => .error text
  | .failed => .failed
  | .succeeded => .succeeded
  | .idle => .idle

def line (text : String) (detail : Option String) : String :=
  match detail with
  | some detail => s!"{text} ({detail})"
  | none => text

end Notice

end GameExport
