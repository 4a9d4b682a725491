import MeteredContracts.Text.Utf8
import MeteredContracts.Wasm.Machine
import MeteredContracts.World

namespace MeteredContracts

structure Outcome where
  output : Except CallError Bytes
  fuelUsed : Nat

structure Delegate where
  maxDepth : UInt32
  perform : Call → World → Outcome × World

structure Caller where
  sandbox : Nat
  exportsMemory : Bool
  delegate : Option Delegate

structure Scene where
  guest : Wasm.State
  result : Option Bytes
  world : World

/-- A host function that fails keeps what it has done before. -/
abbrev HostM := ExceptT Failure (StateM Scene)

namespace HostM

def fail {α : Type} (e : HostError) : HostM α := throw (.host e)

def ofExcept {α : Type} : Except HostError α → HostM α
  | .ok a => pure a
  | .error e => fail e

theorem bind_apply {α β : Type} (x : HostM α) (f : α → HostM β) (s : Scene) :
    (x >>= f) s = match x s with
      | (.ok a, s) => f a s
      | (.error e, s) => (.error e, s) := by
  show (match x s with | (r, s) => ExceptT.bindCont f r s) = _
  rcases x s with ⟨_ | _, _⟩ <;> rfl

end HostM

namespace Scene

def note (s : Scene) (e : Event) : Scene := { s with world := s.world.note e }

def range (ptr len : Int) (size : Nat) : Except HostError Nat :=
  if ptr < 0 then .error (.memoryAccess s!"negative pointer {ptr}")
  else if len < 0 then .error (.memoryAccess s!"negative length {len}")
  else
    let stop := ptr.toNat + len.toNat
    if size < stop then
      .error (.memoryAccess s!"range {ptr}..{stop} exceeds memory size {size}")
    else .ok stop

def read (s : Scene) (c : Caller) (ptr len : Int) : Except HostError Bytes :=
  if c.exportsMemory then
    match range ptr len s.guest.memory.size with
    | .error e => .error e
    | .ok _ => .ok ((s.guest.memory.read? ptr.toNat len.toNat).getD [])
  else .error (.missingExport "memory")

def overwrite : Scene → Nat → Bytes → Scene
  | ⟨⟨⟨bytes, limit⟩, globals, meter⟩, result, world⟩, start, bs =>
    ⟨⟨⟨Wasm.Memory.overwrite bytes start bs, limit⟩, globals, meter⟩, result, world⟩

def write (s : Scene) (c : Caller) (ptr : Int) (bs : Bytes) : Except HostError Unit × Scene :=
  if c.exportsMemory then
    if Int32.maxValue.toInt < bs.length then (.error (.memoryAccess "write too large"), s)
    else match range ptr bs.length s.guest.memory.size with
      | .error e => (.error e, s)
      | .ok _ => (.ok (), s.overwrite ptr.toNat bs)
  else (.error (.missingExport "memory"), s)

def setMeter (s : Scene) (meter : Meter) : Scene := { s with guest := { s.guest with meter } }

end Scene

namespace Caller

def call (c : Caller) : HostM Call := do
  HostM.ofExcept (Registry.lookup (← get).world.registry c.sandbox)

def read (c : Caller) (ptr len : Int) : HostM Bytes := do HostM.ofExcept ((← get).read c ptr len)

def write (c : Caller) (ptr : Int) (bs : Bytes) : HostM Unit := fun s =>
  match s.write c ptr bs with
  | (.ok _, s) => (.ok (), s)
  | (.error e, s) => (.error (.host e), s)

def readAddress (c : Caller) (ptr : Int) : HostM Address := do
  match Address.ofBytes? (← c.read ptr 33) with
  | some a => pure a
  | none => HostM.fail (.memoryAccess "short address read")

def readText (c : Caller) (ptr len : Int) : HostM String := do
  match Utf8.decode (← c.read ptr len) with
  | .ok text => pure text
  | .error fault => HostM.fail (.invalidArgument s!"string is not valid UTF-8: {fault.message}")

end Caller

def HostM.ask (r : Request) : HostM (Except LedgerError r.Answer) := fun s =>
  let (answer, world) := s.world.ask r
  (.ok answer, { s with world })

end MeteredContracts
