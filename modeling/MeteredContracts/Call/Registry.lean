import MeteredContracts.Call.Basic
import MeteredContracts.Error
import MeteredContracts.Table

namespace MeteredContracts

abbrev Registry := Table Nat Call

namespace Registry

def register (r : Registry) (sandbox : Nat) (call : Call) : Registry := r.insert sandbox call

/-- Ends the registration of a sandbox, whichever call it is for. -/
def release (r : Registry) (sandbox : Nat) : Registry := r.erase sandbox

def lookup (r : Registry) (sandbox : Nat) : Except HostError Call :=
  match r.get? sandbox with
  | some call => .ok call
  | none => .error (.unknownCall sandbox)

end Registry

end MeteredContracts
