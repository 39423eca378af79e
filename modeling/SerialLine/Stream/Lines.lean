import SerialLine.Stream.Transfers
/-!
# Lines

Goes through a stream line by line. The walk is over when a line is empty, nothing can be read now,
or an error was given out; from then on the stream is not read any more.
-/
set_option autoImplicit false

namespace SerialLine

/-- A walk through the lines of a stream. -/
structure Lines where
  isOver : Bool := false
  deriving DecidableEq, Inhabited

namespace Lines

variable {W : Type}

def next (walk : Lines) (s : Stream W) (patience : Nat) :
    Act W (Option (Except Error (List UInt8)) × Lines) := do
  if walk.isOver then return (none, walk)
  match ← s.readLine patience none with
  | .ok (some (b :: bs)) => return (some (.ok (b :: bs)), walk)
  | .ok _ => return (none, { isOver := true })
  | .error e => return (some (.error e), { isOver := true })

/-- At most `n` further lines, and whether the walk was seen to be over. -/
def take (s : Stream W) (patience : Nat) : Nat → Lines →
    Act W (List (Except Error (List UInt8)) × Bool × Lines)
  | 0, walk => return ([], false, walk)
  | n + 1, walk => do
    match ← walk.next s patience with
    | (none, walk) => return ([], true, walk)
    | (some line, walk) =>
      let (lines, ended, walk) ← take s patience n walk
      return (line :: lines, ended, walk)

end Lines
end SerialLine
