import MeteredContracts.Sandbox.HostFunction

/-!
Running a guest against its host. The guest machine pauses at each call of a host function; the host
answers, and the machine goes on. The result of a nested call is delivered by running the guest's
`alloc` first, with the guest's own activations waiting below it.
-/

namespace MeteredContracts

open Wasm (Activation Cell Machine Pause Step)

/-- What an engine settles by itself, whatever is configured: how many activations a sandbox may
hold, how many steps a guest may take from one visit to its host to the next and how many visits
there may be, and how many safe points it passes in a millisecond. -/
structure Engine where
  maxDepth : Nat := 10000
  ceiling : Nat := 1 <<< 62
  pace : Nat := 50000

structure Box where
  id : Nat
  module : Wasm.Module
  program : Wasm.Program
  links : Array HostFunction
  timeout : UInt64
  deadline : Option Nat
  ceiling : Nat

namespace Box

def patience (b : Box) (w : World) : Option Nat := b.deadline.bind w.clock.patience

def settleClock (b : Box) (m : Machine) (w : World) : World :=
  { w with clock := w.clock.elapse (b.patience w) m.patience }

def start (b : Box) (guest : Wasm.State) (w : World) (depth function : Nat) (args : List Cell) :
    Step :=
  let arity := ((b.program.type? function).map (·.results.length)).getD 0
  Machine.call b.program ⟨guest, ⟨arity, #[], args.reverse, [], []⟩, [], depth, b.patience w⟩
    function

end Box

/-- A result on its way into the guest, and the activations that go on once it is there. -/
structure Delivery where
  bytes : Bytes
  active : Activation
  callers : List Activation

inductive Turn
  | step (s : Step) (deliveries : List Delivery) (result : Option Bytes) (world : World)
  | ended (how : Except Failure (List Cell)) (scene : Scene)

def backtrace : String := "error while executing at wasm backtrace:"

/-- The kind of a failure outlasts the guest's activations, and other texts give way to the note on
them. -/
def Failure.inGuest : Failure → Failure
  | .other _ => .other backtrace
  | f => f

namespace Turn

def resume (b : Box) (scene : Scene) (active : Activation) (callers : List Activation) (depth : Nat)
    (results : List Cell) (deliveries : List Delivery) : Turn :=
  let active := { active with operands := results.reverse ++ active.operands }
  .step (.next ⟨scene.guest, active, callers, depth, b.patience scene.world⟩) deliveries
    scene.result scene.world

def allocator (b : Box) (bytes : Bytes) : Except Failure (Nat × List Cell) :=
  if UInt32.size ≤ bytes.length then
    .error (.host (.invalidArgument "nested call result too large"))
  else match b.module.exportedFunction? "alloc" with
    | none => .error (.host (.missingExport "alloc"))
    | some index =>
      if b.program.type? index = some ⟨[.i32], [.i32]⟩ then
        if Int32.maxValue.toInt < bytes.length then .error (.host (.memoryAccess "write too large"))
        else .ok (index, [.ofNat bytes.length])
      else .error (.other "type mismatch")

def answer (b : Box) (delegate : Option Delegate) (m : Machine) (function : Nat) (args : List Cell)
    (deliveries : List Delivery) (result : Option Bytes) (world : World) : Turn :=
  let ⟨guest, active, callers, depth, _⟩ := m
  -- a function that is called from outside sees no guest around it
  let outside := callers.isEmpty
  let caller : Caller := ⟨b.id, b.module.exportsMemory && !outside, delegate⟩
  match b.links[function]? with
  | none => .ended (.error (.other backtrace)) ⟨guest, result, world⟩
  | some f =>
    match f.run caller args ⟨guest, result, world⟩ with
    | (.error e, scene) => .ended (.error (if outside then e else e.inGuest)) scene
    | (.ok (.values results), scene) =>
      resume b scene active callers depth results deliveries
    | (.ok (.deliver bytes), scene) =>
      match allocator b bytes with
      | .error e => .ended (.error e.inGuest) scene
      | .ok (index, args) =>
        .step (b.start scene.guest scene.world depth index args)
          (⟨bytes, active, callers⟩ :: deliveries) scene.result scene.world

def deliver (b : Box) (delegate : Option Delegate) (m : Machine) (d : Delivery)
    (place : Int) (deliveries : List Delivery) (result : Option Bytes) (world : World) : Turn :=
  let ⟨guest, _, _, depth, _⟩ := m
  let caller : Caller := ⟨b.id, b.module.exportsMemory, delegate⟩
  match Scene.write ⟨guest, result, world⟩ caller place d.bytes with
  | (.error e, scene) => .ended (.error (.host e)) scene
  | (.ok _, scene) =>
    resume b scene d.active d.callers depth [.ofInt64 (packRange place d.bytes.length)] deliveries

def react (b : Box) (delegate : Option Delegate) (m : Machine) (why : Pause)
    (deliveries : List Delivery) (result : Option Bytes) (world : World) : Turn :=
  let world := b.settleClock m world
  match why with
  | .trapped t => .ended (.error (.trap t)) ⟨m.state, result, world⟩
  | .call function args => answer b delegate m function args deliveries result world
  | .finished results =>
    match deliveries with
    | [] => .ended (.ok results.reverse) ⟨m.state, result, world⟩
    | d :: deliveries =>
      deliver b delegate m d (results.headD 0).int32 deliveries result world

def advance (b : Box) (delegate : Option Delegate) : Turn → Turn
  | .step (.next m) deliveries result world =>
    match m.run b.program b.ceiling with
    | (m, why) => react b delegate m why deliveries result world
  | .step (.pause m why) deliveries result world => react b delegate m why deliveries result world
  | .ended how scene => .ended how scene

end Turn

def Box.drive (b : Box) (delegate : Option Delegate) :
    Nat → Turn → Except Failure (List Cell) × Scene
  | _, .ended how scene => (how, scene)
  | 0, .step s _ result world => (.error (.trap .interrupted), ⟨s.machine.state, result, world⟩)
  | turns + 1, .step s deliveries result world =>
    drive b delegate turns (Turn.advance b delegate (.step s deliveries result world))

end MeteredContracts
