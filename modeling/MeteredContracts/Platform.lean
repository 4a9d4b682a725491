import MeteredContracts.Call.Template
import MeteredContracts.Loading.Acquisition
import MeteredContracts.Sandbox.Invocation
import MeteredContracts.Sandbox.Setup

/-!
Calls from end to end. A call finds the contract that its account is bound to, loads it, and runs it
in a sandbox of its own; the calls that it makes on the way are run in the same manner, one level
deeper.
-/

namespace MeteredContracts

structure Platform where
  config : Config
  validator : Option Validator
  engine : Engine := {}

structure Blueprint where
  config : Config
  validator : Option Validator := none
  cache : Option ArtifactCache := none
  engine : Engine := {}

namespace Blueprint

def debugTail (b : Blueprint) : String :=
  s!"has_validator: {b.validator.isSome}, has_strategy: {b.cache.isSome} \x7d"

def builtInValidator (c : ValidationConfig) : Option Validator :=
  if c.enabled then some (.sizeLimit c.maxModuleBytes.toNat) else none

def build (b : Blueprint) : Except CallError (Platform × ArtifactCache) := do
  b.config.check
  pure (⟨b.config, b.validator <|> builtInValidator b.config.validation, b.engine⟩,
    b.cache.getD (.bounded { budget := b.config.cache.maxBytes.toNat }))

end Blueprint

/-- A call whose sandbox is set up and registered. -/
structure Session where
  cacheHit : Bool
  sandbox : Sandbox
  world : World

namespace Session

def begin (call : Call) (cacheHit : Bool) (s : Sandbox) (w : World) : Session :=
  let call := { call with sandbox := some s.id }
  ⟨cacheHit, s, { w with registry := Registry.register w.registry s.id call }⟩

def finish : Session → Call → Outcome × World
  | ⟨cacheHit, s, w⟩, call =>
    match s.invoke call.function call.payload w with
    | (output, s, w) =>
      let fuel := s.consumedFuel
      (⟨output, fuel⟩,
        { w with
          registry := Registry.release w.registry s.id
          statistics := w.statistics.record fuel 0 cacheHit })

end Session

namespace Platform

def engineText (c : EngineConfig) : String :=
  s!"WasmEngine \x7b pooling_allocator: {c.pooling}, max_instances: {c.maxInstances}, " ++
    s!"epoch_interruption: {c.epochInterruption}, .. \x7d"

def loaderText (validator : Option Validator) : String :=
  s!"ModuleLoader \x7b has_validator: {validator.isSome}, .. \x7d"

def debugText (p : Platform) (w : World) : String :=
  s!"ContractRuntime \x7b engine: {engineText p.config.engine}, " ++
    s!"loader: {loaderText p.validator}, active_calls: {w.registry.size}, .. \x7d"

def prepare (p : Platform) (cancel : Cancellation) (call : Call) (w : World) :
    Except CallError Loaded × World :=
  let request : Request := .getAccountContract call.contract
  let resolved := Stage.resolution.race cancel (1 + w.service.delay .getAccountContract) w
    (w.note (.request request)) fun w =>
      match w.ask request with
      | (.ok id, w) => (.ok id, w)
      | (.error e, w) => (.error (.resolution call.contract.toText e), w)
  match resolved with
  | (.error e, w) => (.error e, w)
  | (.ok (id, cancel), w) =>
    match w.load p.validator id call.function cancel with
    | (.error e, w) => (.error e, w)
    | (.ok (loaded, _), w) => (.ok loaded, w)

def perform (p : Platform) (delegate : Delegate) (cancel : Cancellation) (call : Call) (w : World) :
    Outcome × World :=
  match p.prepare cancel call w with
  | (.error e, w) => (⟨.error e, 0⟩, w)
  | (.ok loaded, w) =>
    match Sandbox.instantiate HostFunction.standard p.config.engine p.config.execution
        loaded.artifact.module call.fuel w p.engine with
    -- a start function may have burned fuel by now
    | (.error e, w) => (⟨.error e, 0⟩, w)
    | (.ok s, w) =>
      (Session.begin call loaded.cacheHit { s with delegate := some delegate } w).finish call

/-- Makes calls that may nest `levels` deep. None are asked for at the deepest level, where the
limit on the depth of calls has been reached. -/
def delegate (p : Platform) : Nat → Delegate
  | 0 =>
    let limit := p.config.execution.maxCallDepth
    ⟨limit, fun _ w => (⟨.error (.host (.callDepthExceeded limit)), 0⟩, w)⟩
  | levels + 1 =>
    ⟨p.config.execution.maxCallDepth, fun call w => p.perform (delegate p levels) none call w⟩

def execute (p : Platform) (cancel : Cancellation) (call : Call) (w : World) : Outcome × World :=
  p.perform (p.delegate (p.config.execution.maxCallDepth.toNat - call.depth.toNat)) cancel call w

def template (p : Platform) (defaults : Call) : CallTemplate :=
  .ofCall defaults p.config.execution.defaultFuel

end Platform

end MeteredContracts
