import MeteredContracts.Sandbox.Run

namespace MeteredContracts

open Wasm (Cell)

structure Sandbox where
  box : Box
  guest : Wasm.State
  result : Option Bytes := none
  delegate : Option Delegate := none

namespace Sandbox

def id (s : Sandbox) : Nat := s.box.id

def remainingFuel (s : Sandbox) : Nat := s.guest.meter.remaining

def consumedFuel (s : Sandbox) : Nat := s.guest.meter.consumed

def debugText (s : Sandbox) : String :=
  s!"Sandbox \x7b id: SandboxId({s.id}), remaining_fuel: {s.remainingFuel}, .. \x7d"

def run (s : Sandbox) (function : Nat) (args : List Cell) (w : World) :
    Except Failure (List Cell) × Sandbox × World :=
  let ⟨box, guest, result, delegate⟩ := s
  match box.drive delegate box.ceiling (.step (box.start guest w 0 function args) [] result w) with
  | (how, ⟨guest, result, w⟩) => (how, ⟨box, guest, result, delegate⟩, w)

end Sandbox

end MeteredContracts
