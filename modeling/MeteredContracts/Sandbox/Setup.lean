import MeteredContracts.Config.Basic
import MeteredContracts.Sandbox.Basic
import MeteredContracts.Sandbox.Linking

/-!
Setting a sandbox up: its module is linked, memory and table are filled, and the start function runs
on the fuel of the call. A memory that exceeds the configured limit is refused here. The slots of a
pool are no smaller than this limit, and are not looked at, here or when a module is compiled.
-/

namespace MeteredContracts

open Wasm (Cell)

namespace Wasm

def ConstExpr.eval (globals : Array Cell) : ConstExpr → Cell
  | .const _ v => v
  | .global i => globals.getD i 0

def Module.initialGlobals (m : Module) : Array Cell :=
  m.globals.foldl (fun globals g => globals.push (g.init.eval globals)) #[]

def ElementSegment.place (globals : Array Cell) (table : Array (Option Nat))
    (segment : ElementSegment) : Except Trap (Array (Option Nat)) :=
  let start := (segment.offset.eval globals).toUInt32.toNat
  if start + segment.functions.length ≤ table.size then
    .ok (segment.functions.zipIdx.foldl (fun table (f, i) =>
      table.setIfInBounds (start + i) (some f)) table)
  else .error .tableOutOfBounds

def DataSegment.place (globals : Array Cell) (memory : Memory) (segment : DataSegment) :
    Except Trap Memory :=
  match memory.write? (segment.offset.eval globals).toUInt32.toNat segment.bytes with
  | some memory => .ok memory
  | none => .error .memoryOutOfBounds

def Module.initialTable (m : Module) (globals : Array Cell) : Except Trap (Array (Option Nat)) :=
  m.elements.foldlM (ElementSegment.place globals)
    (Array.replicate ((m.table.map (·.min)).getD 0) none)

def Module.initialMemory (m : Module) (globals : Array Cell) (memory : Memory) :
    Except Trap Memory :=
  m.data.foldlM (DataSegment.place globals) memory

end Wasm

namespace Sandbox

def emptyMemory (execution : ExecutionConfig) (m : Wasm.Module) : Except CallError Wasm.Memory :=
  match m.memory with
  | none => .ok (.new 0 0)
  | some limits =>
    if execution.maxPages < limits.min then
      .error (.instantiation
        s!"memory minimum size of {limits.min} pages exceeds memory limits")
    else .ok (.new limits.min (min (limits.max.getD 65536) execution.maxPages))

/-- A sandbox before its module's start function has run. With a pool, there are no more sandboxes
at a time than slots; a sandbox counts while the call that it serves is registered. -/
def prepare (host : List HostFunction) (config : EngineConfig) (execution : ExecutionConfig)
    (id : Nat) (module : Wasm.Module) (fuel : UInt64) (w : World) (engine : Engine := {}) :
    Except CallError Sandbox := do
  let links ← (link host module.imports).mapError fun e => .instantiation e.message
  if config.pooling ∧ config.maxInstances.toNat ≤ w.registry.size then
    throw (.instantiation
      s!"maximum concurrent limit of {config.maxInstances} for core instances reached")
  let globals := module.initialGlobals
  let memory ← emptyMemory execution module
  let table ← (module.initialTable globals).mapError fun t => .instantiation t.text
  let memory ← (module.initialMemory globals memory).mapError fun t => .instantiation t.text
  let deadline :=
    if config.epochInterruption then
      some (w.clock.deadline engine.pace config.tick.toNat execution.timeoutMs.toNat)
    else none
  let program : Wasm.Program :=
    ⟨module.importedFunctions.toArray, module.functions, table, engine.maxDepth⟩
  pure {
    box := ⟨id, module, program, links.toArray, execution.timeoutMs, deadline, engine.ceiling⟩
    guest := ⟨memory, globals, .new fuel⟩ }

def runStart (s : Sandbox) (w : World) : Except CallError Sandbox × World :=
  match s.box.module.start with
  | none => (.ok s, w)
  | some function =>
    match s.run function [] w with
    | (.ok _, s, w) => (.ok s, w)
    | (.error _, _, w) => (.error (.instantiation backtrace), w)

def instantiate (host : List HostFunction) (config : EngineConfig) (execution : ExecutionConfig)
    (module : Wasm.Module) (fuel : UInt64) (w : World) (engine : Engine := {}) :
    Except CallError Sandbox × World :=
  -- the name is taken from here on, even if there is going to be no sandbox
  let id := w.nextSandbox
  let w := { w with nextSandbox := id + 1 }
  match prepare host config execution id module fuel w engine with
  | .error e => (.error e, w)
  | .ok s => s.runStart w

end Sandbox

end MeteredContracts
