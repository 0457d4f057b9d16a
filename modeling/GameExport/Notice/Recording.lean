import GameExport.Notice.Basic

/-! # Recorded notices

A host that keeps all notices, and what it can say about them.
-/

namespace GameExport

structure Recording where
  notices : List (Notice Single)
  deriving DecidableEq, Repr

namespace Recording

def empty : Recording := ⟨[]⟩

def record (recording : Recording) (notice : Notice Single) : Recording :=
  ⟨recording.notices ++ [notice]⟩

def messages (recording : Recording) : List (String × Option String) :=
  recording.notices.filterMap fun
    | .message text detail => some (text, detail)
    | _ => none

def percents (recording : Recording) : List Single :=
  recording.notices.filterMap fun
    | .progress value => some value
    | _ => none

def errors (recording : Recording) : List String :=
  recording.notices.filterMap fun
    | .error text => some text
    | _ => none

def completions (recording : Recording) : List Bool :=
  recording.notices.filterMap fun
    | .succeeded => some true
    | .failed => some false
    | _ => none

def idleCount (recording : Recording) : Nat :=
  (recording.notices.filter fun
    | .idle => true
    | _ => false).length

def increasing : List Single → Bool
  | first :: second :: rest => first.less second && increasing (second :: rest)
  | _ => true

def percentsIncrease (recording : Recording) : Bool := increasing recording.percents

end Recording

end GameExport
