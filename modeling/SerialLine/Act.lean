/-!
# Acts

An act is a computation on a state that may come to a halt without an answer. The state reached by
then is kept. Errors that a caller is meant to handle are ordinary answers of type `Except`; a halt
is for the two cases in which there is nothing to answer.
-/
set_option autoImplicit false

namespace SerialLine

/-- Why a computation stopped without an answer. -/
inductive Halt where
  /-- A count was used that fits in no piece of memory, or in none of the size at hand. Whoever guards
  something still puts it in order. -/
  | aborted
  /-- A wait or a transfer went on for longer than its caller was prepared to follow it. -/
  | unfinished
  deriving DecidableEq, Inhabited

/-- A computation on states of type `W`. -/
abbrev Act (W : Type) := EStateM Halt W

instance {W : Type} : MonadLift (StateM W) (EStateM Halt W) where
  monadLift f w := let (a, w) := f w; .ok a w

/-- Runs an act on the part of a state that `get` reads and `set` replaces. -/
def Act.onPart {W V α : Type} (get : W → V) (set : V → W → W) (act : Act V α) : Act W α := fun w =>
  match act (get w) with
  | .ok a v => .ok a (set v w)
  | .error e v => .error e (set v w)

/-- Runs a computation that always answers on a part of a state. -/
def onPart {W V α : Type} (get : W → V) (set : V → W → W) (f : StateM V α) : StateM W α := fun w =>
  let (a, v) := f (get w)
  (a, set v w)

end SerialLine
