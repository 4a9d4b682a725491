import MeteredContracts.Error

namespace MeteredContracts

namespace Defaults

def pooling : Bool := true
def maxInstances : UInt32 := 1000
def instanceMemoryMb : UInt32 := 64
def epochInterruption : Bool := true
def epochTickMs : UInt64 := 1
def defaultFuel : UInt64 := 10000000
def timeoutMs : UInt64 := 1000
def maxMemoryMb : UInt32 := 16
def maxCallDepth : UInt32 := 8
def cacheMaxBytes : UInt64 := 67108864
def maxModuleBytes : UInt64 := 4194304

end Defaults

structure EngineConfig where
  pooling : Bool := Defaults.pooling
  maxInstances : UInt32 := Defaults.maxInstances
  instanceMemoryMb : UInt32 := Defaults.instanceMemoryMb
  epochInterruption : Bool := Defaults.epochInterruption
  epochTickMs : UInt64 := Defaults.epochTickMs
  deriving DecidableEq, Repr, Inhabited

structure ExecutionConfig where
  defaultFuel : UInt64 := Defaults.defaultFuel
  timeoutMs : UInt64 := Defaults.timeoutMs
  maxMemoryMb : UInt32 := Defaults.maxMemoryMb
  maxCallDepth : UInt32 := Defaults.maxCallDepth
  deriving DecidableEq, Repr, Inhabited

structure CacheConfig where
  maxBytes : UInt64 := Defaults.cacheMaxBytes
  deriving DecidableEq, Repr, Inhabited

structure ValidationConfig where
  enabled : Bool := false
  maxModuleBytes : UInt64 := Defaults.maxModuleBytes
  deriving DecidableEq, Repr, Inhabited

structure Config where
  engine : EngineConfig := {}
  execution : ExecutionConfig := {}
  cache : CacheConfig := {}
  validation : ValidationConfig := {}
  deriving DecidableEq, Repr, Inhabited

def EngineConfig.tick (c : EngineConfig) : UInt64 := max c.epochTickMs 1

def ExecutionConfig.maxMemoryBytes (c : ExecutionConfig) : Nat := c.maxMemoryMb.toNat * 1048576

def ExecutionConfig.maxPages (c : ExecutionConfig) : Nat := c.maxMemoryMb.toNat * 16

def Config.check (c : Config) : Except CallError Unit :=
  let memory := c.execution.maxMemoryMb
  let slot := c.engine.instanceMemoryMb
  if memory = 0 then .error (.invalidConfig "execution.max_memory_mb must be at least 1")
  else if c.engine.pooling ∧ slot < memory then
    .error (.invalidConfig
      s!"execution.max_memory_mb ({memory}) exceeds engine.instance_memory_mb ({slot})")
  else if c.engine.pooling ∧ c.engine.maxInstances = 0 then
    .error (.invalidConfig "engine.max_instances must be at least 1 with the pooling allocator")
  else .ok ()

end MeteredContracts
