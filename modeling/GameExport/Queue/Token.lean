import GameExport.FileTree.Basic

/-! # Tokens

A token is what jobs and those who wait for them are cancelled by. It has fired once it or one
of the tokens that it was made from has been fired, and it stays so.
-/

namespace GameExport

structure Token where
  id : Nat
  parents : List Nat
  deriving DecidableEq, Repr

def Token.child (token : Token) (id : Nat) : Token := ⟨id, token.id :: token.parents⟩

structure World where
  files : FileTree
  fired : List Nat
  deriving Repr

namespace World

def hasFired (world : World) (token : Token) : Bool :=
  (token.id :: token.parents).any world.fired.contains

def fire (world : World) (token : Token) : World :=
  { world with fired := token.id :: world.fired }

@[simp] theorem hasFired_fire_self (world : World) (token : Token) :
    (world.fire token).hasFired token = true := by
  simp [hasFired, fire]

theorem hasFired_fire {world : World} {token : Token} (other : Token)
    (fired : world.hasFired token = true) : (world.fire other).hasFired token = true := by
  simp only [hasFired, fire, List.any_eq_true, List.contains_iff_mem, List.mem_cons] at fired ⊢
  obtain ⟨id, isOwn, isFired⟩ := fired
  exact ⟨id, isOwn, .inr isFired⟩

end World

end GameExport
