import MeteredContracts.Error

/-!
Fuel. A sandbox starts with a budget, which instructions and debits draw on, and grants and refunds
fill up. What has been consumed is never stored: it is the budget and the grants less what is left.
-/

namespace MeteredContracts

def maxFuel : Nat := UInt64.size - 1

def saturate (n : Nat) : Nat := min n maxFuel

/-- The balance may be overdrawn. An instruction adds its cost to `unpaid`. This debt is settled
where control enters or leaves a function, and forgiven where a trap comes in between. -/
structure Meter where
  balance : Int
  unpaid : Nat
  initial : Nat
  granted : Nat
  deriving DecidableEq, Repr, Inhabited

namespace Meter

def new (budget : UInt64) : Meter := ⟨budget.toNat, 0, budget.toNat, 0⟩

def charge (m : Meter) (cost : Nat) : Meter := { m with unpaid := m.unpaid + cost }

def settle (m : Meter) : Meter := { m with balance := m.balance - m.unpaid, unpaid := 0 }

def forgive (m : Meter) : Meter := { m with unpaid := 0 }

def isEmpty (m : Meter) : Bool := decide (m.balance ≤ m.unpaid)

def remaining (m : Meter) : Nat := m.balance.toNat

def consumed (m : Meter) : Nat := saturate (m.initial + m.granted) - m.remaining

def add (m : Meter) (amount : Nat) : Meter :=
  { m with
    balance := saturate (m.remaining + amount)
    granted := saturate (m.granted + amount) }

def refund (m : Meter) (amount : Nat) : Meter :=
  { m with balance := saturate (m.remaining + amount) }

def consume (m : Meter) (amount : Nat) : Except CallError Meter :=
  if m.remaining < amount then .error .fuelExhausted
  else .ok { m with balance := m.remaining - amount }

end Meter

end MeteredContracts
