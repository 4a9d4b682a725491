import MeteredContracts.Config.Basic
import MeteredContracts.Document.Record

namespace MeteredContracts

open Document (Surplus)

def EngineConfig.toDocument (c : EngineConfig) : Document :=
  .table [
    ("pooling_allocator", .bool c.pooling),
    ("max_instances", .int c.maxInstances.toNat),
    ("instance_memory_mb", .int c.instanceMemoryMb.toNat),
    ("epoch_interruption", .bool c.epochInterruption),
    ("epoch_tick_ms", .int c.epochTickMs.toNat)]

def EngineConfig.ofDocument (surplus : Surplus) (d : Document) : Option EngineConfig := do
  let fields ← d.record surplus ["pooling_allocator", "max_instances", "instance_memory_mb",
    "epoch_interruption", "epoch_tick_ms"]
  some {
    pooling := ← fields.optional "pooling_allocator" Document.bool? Defaults.pooling
    maxInstances := ← fields.optional "max_instances" Document.uint32? Defaults.maxInstances
    instanceMemoryMb :=
      ← fields.optional "instance_memory_mb" Document.uint32? Defaults.instanceMemoryMb
    epochInterruption :=
      ← fields.optional "epoch_interruption" Document.bool? Defaults.epochInterruption
    epochTickMs := ← fields.optional "epoch_tick_ms" Document.uint64? Defaults.epochTickMs }

def ExecutionConfig.toDocument (c : ExecutionConfig) : Document :=
  .table [
    ("default_fuel", .int c.defaultFuel.toNat),
    ("timeout_ms", .int c.timeoutMs.toNat),
    ("max_memory_mb", .int c.maxMemoryMb.toNat),
    ("max_call_depth", .int c.maxCallDepth.toNat)]

def ExecutionConfig.ofDocument (surplus : Surplus) (d : Document) : Option ExecutionConfig := do
  let fields ← d.record surplus ["default_fuel", "timeout_ms", "max_memory_mb", "max_call_depth"]
  some {
    defaultFuel := ← fields.optional "default_fuel" Document.uint64? Defaults.defaultFuel
    timeoutMs := ← fields.optional "timeout_ms" Document.uint64? Defaults.timeoutMs
    maxMemoryMb := ← fields.optional "max_memory_mb" Document.uint32? Defaults.maxMemoryMb
    maxCallDepth := ← fields.optional "max_call_depth" Document.uint32? Defaults.maxCallDepth }

def CacheConfig.toDocument (c : CacheConfig) : Document :=
  .table [("max_bytes", .int c.maxBytes.toNat)]

def CacheConfig.ofDocument (surplus : Surplus) (d : Document) : Option CacheConfig := do
  let fields ← d.record surplus ["max_bytes"]
  some { maxBytes := ← fields.optional "max_bytes" Document.uint64? Defaults.cacheMaxBytes }

def ValidationConfig.toDocument (c : ValidationConfig) : Document :=
  .table [
    ("enabled", .bool c.enabled),
    ("max_module_bytes", .int c.maxModuleBytes.toNat)]

def ValidationConfig.ofDocument (surplus : Surplus) (d : Document) : Option ValidationConfig := do
  let fields ← d.record surplus ["enabled", "max_module_bytes"]
  some {
    enabled := ← fields.optional "enabled" Document.bool? false
    maxModuleBytes :=
      ← fields.optional "max_module_bytes" Document.uint64? Defaults.maxModuleBytes }

def Config.toDocument (c : Config) : Document :=
  .table [
    ("engine", c.engine.toDocument),
    ("execution", c.execution.toDocument),
    ("cache", c.cache.toDocument),
    ("validation", c.validation.toDocument)]

def Config.ofDocument (surplus : Surplus) (d : Document) : Option Config := do
  let fields ← d.record surplus ["engine", "execution", "cache", "validation"]
  some {
    engine := ← fields.optional "engine" (EngineConfig.ofDocument surplus) {}
    execution := ← fields.optional "execution" (ExecutionConfig.ofDocument surplus) {}
    cache := ← fields.optional "cache" (CacheConfig.ofDocument surplus) {}
    validation := ← fields.optional "validation" (ValidationConfig.ofDocument surplus) {} }

end MeteredContracts
