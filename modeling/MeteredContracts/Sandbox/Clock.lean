namespace MeteredContracts

/-- Guests look at the clock at safe points only: where a function starts and at the head of a loop.
A driven clock moves with the safe points that they pass; any other stands still until it is told to
tick. -/
structure Clock where
  now : Nat := 0
  driven : Bool := false
  deriving DecidableEq, Repr, Inhabited

namespace Clock

def tick (c : Clock) (count : Nat) : Clock := { c with now := c.now + count }

def ticks (tick timeout : Nat) : Nat := max 1 (min (timeout / max tick 1) (UInt64.size - 1))

def deadline (c : Clock) (pace tick timeout : Nat) : Nat :=
  if c.driven then c.now + ticks tick timeout * max tick 1 * pace else c.now + ticks tick timeout

def patience (c : Clock) (deadline : Nat) : Option Nat :=
  if c.driven then some (deadline - c.now)
  else if deadline ≤ c.now then some 0
  else none

def elapse (c : Clock) : Option Nat → Option Nat → Clock
  | some before, some after => if c.driven then { c with now := c.now + (before - after) } else c
  | _, _ => c

end Clock

end MeteredContracts
