import MeteredContracts.Sandbox.Scene

namespace MeteredContracts

open Wasm (Cell FunctionType ValueType)

inductive MeterFunction
  | consume
  | add
  | refund
  | consumed
  | fail
  deriving DecidableEq, Repr

inductive HostFunction
  | writeLog
  | getBalance
  | sendBalance
  | getState
  | putState
  | deleteState
  | setCallResult
  | remainingFuel
  | deploy
  | callContract
  | meter (f : MeterFunction)
  deriving DecidableEq, Repr

/-- What a host function hands back: its results, or bytes for which the guest has to find a place
first. -/
inductive Reply
  | values (results : List Cell)
  | deliver (bytes : Bytes)

namespace HostFunction

def module : HostFunction → String
  | .writeLog => "log"
  | .getBalance | .sendBalance => "balance"
  | .getState | .putState | .deleteState => "state"
  | .setCallResult | .remainingFuel | .deploy | .callContract => "contract"
  | .meter _ => "meter"

def name : HostFunction → String
  | .writeLog => "write"
  | .getBalance => "get"
  | .sendBalance => "send"
  | .getState => "get"
  | .putState => "put"
  | .deleteState => "delete"
  | .setCallResult => "set_call_result"
  | .remainingFuel => "remaining_fuel"
  | .deploy => "deploy"
  | .callContract => "call_contract"
  | .meter .consume => "consume"
  | .meter .add => "add"
  | .meter .refund => "refund"
  | .meter .consumed => "consumed"
  | .meter .fail => "fail"

def type : HostFunction → FunctionType
  | .writeLog => ⟨[.i32, .i32, .i32], []⟩
  | .getBalance => ⟨[.i32], [.i64]⟩
  | .sendBalance => ⟨[.i32, .i64], [.i32]⟩
  | .getState => ⟨[.i32, .i32, .i32, .i32], [.i32]⟩
  | .putState => ⟨[.i32, .i32, .i32, .i32], []⟩
  | .deleteState => ⟨[.i32, .i32], [.i32]⟩
  | .setCallResult => ⟨[.i32, .i32], []⟩
  | .remainingFuel => ⟨[], [.i64]⟩
  | .deploy => ⟨[.i32, .i32, .i32, .i32, .i32], [.i32]⟩
  | .callContract => ⟨[.i32, .i32, .i32, .i32, .i32, .i64, .i64], [.i64]⟩
  | .meter .consume | .meter .add | .meter .refund => ⟨[.i64], []⟩
  | .meter .consumed => ⟨[], [.i64]⟩
  | .meter .fail => ⟨[.i32], []⟩

def standard : List HostFunction :=
  [.writeLog, .getBalance, .sendBalance, .getState, .putState, .deleteState, .setCallResult,
    .remainingFuel, .deploy, .callContract]

def metered : List HostFunction :=
  standard ++
    [.meter .consume, .meter .add, .meter .refund, .meter .consumed, .meter .fail]

def find? (functions : List HostFunction) (module name : String) : Option HostFunction :=
  functions.find? fun f => f.module == module && f.name == name

end HostFunction

def Wasm.Cell.int32 (c : Cell) : Int := c.toUInt32.toInt32.toInt

def Wasm.Cell.int64 (c : Cell) : Int := c.toInt64.toInt

def Wasm.Cell.ofInt32 (n : Int) : Cell := .of32 (UInt32.ofInt n)

def Wasm.Cell.ofInt64 (n : Int) : Cell := UInt64.ofInt n

def packRange (ptr : Int) (len : Nat) : Int := ptr * UInt32.size + len

namespace Caller

def writeLog (c : Caller) (level ptr len : Int) : HostM Unit := do
  let s ← get
  match s.read c ptr len with
  -- the guest does not notice
  | .error e => set (s.note (.lostLine e))
  | .ok bytes =>
    let contract := (s.world.registry.get? c.sandbox).map (·.contract)
    set (s.note (.line (.ofInt level) contract (Utf8.decodeLossy bytes)))

def getBalance (c : Caller) (account : Int) : HostM Int := do
  discard c.call
  let a ← c.readAddress account
  match ← HostM.ask (.getBalance a) with
  | .ok amount => pure (min amount.toNat Int64.maxValue.toInt)
  | .error e => HostM.fail (.ledger e)

def sendBalance (c : Caller) (receiver amount : Int) : HostM Int := do
  let call ← c.call
  let receiver ← c.readAddress receiver
  if amount < 0 then HostM.fail (.invalidArgument s!"negative transfer amount {amount}")
  else
    match ← HostM.ask (.transferBalance call.contract receiver (.ofNat amount.toNat)) with
    | .ok _ => pure 0
    | .error _ => pure 1

def getState (c : Caller) (key keyLen out capacity : Int) : HostM Int := do
  let call ← c.call
  let key ← c.read key keyLen
  match ← HostM.ask (.getState call.contract key) with
  | .error e => HostM.fail (.ledger e)
  | .ok none => pure (-1)
  | .ok (some value) =>
    c.write out (value.take capacity.toNat)
    pure (min value.length Int32.maxValue.toInt)

def putState (c : Caller) (key keyLen value valueLen : Int) : HostM Unit := do
  let call ← c.call
  let key ← c.read key keyLen
  let value ← c.read value valueLen
  match ← HostM.ask (.putState call.contract key value) with
  | .ok _ => pure ()
  | .error e => HostM.fail (.ledger e)

def deleteState (c : Caller) (key keyLen : Int) : HostM Int := do
  let call ← c.call
  let key ← c.read key keyLen
  match ← HostM.ask (.deleteState call.contract key) with
  | .ok true => pure 1
  | .ok false => pure 0
  | .error e => HostM.fail (.ledger e)

def setCallResult (c : Caller) (ptr len : Int) : HostM Unit := do
  let bytes ← c.read ptr len
  modify fun s => { s with result := some bytes }

def remainingFuel : HostM Int := do
  pure (min (← get).guest.meter.remaining Int64.maxValue.toInt)

def deploy (c : Caller) (id idLen data dataLen out : Int) : HostM Int := do
  discard c.call
  let id ← c.read id idLen
  let data ← c.read data dataLen
  match ← HostM.ask (.newAccount ⟨id⟩ data) with
  | .error _ => pure 1
  | .ok a =>
    -- the account stays, even if there is no place for its address
    c.write out a.bytes
    pure 0

def consumeFuel (amount : Nat) : HostM Unit := fun s =>
  match s.guest.meter.consume amount with
  | .ok meter => (.ok (), s.setMeter meter)
  | .error e => (.error (.call e), s)

def addFuel (amount : Nat) : HostM Unit := modify fun s => s.setMeter (s.guest.meter.add amount)

def refundFuel (amount : Nat) : HostM Unit :=
  modify fun s => s.setMeter (s.guest.meter.refund amount)

def delegateAt (c : Caller) (depth : UInt32) : HostM Delegate :=
  match c.delegate with
  | none => HostM.fail (.invalidArgument "nested calls are not available in this sandbox")
  | some delegate =>
    if delegate.maxDepth ≤ depth then HostM.fail (.callDepthExceeded delegate.maxDepth)
    else pure delegate

def unsigned (n : Int) (what : String) : HostM Nat :=
  if n < 0 then HostM.fail (.invalidArgument s!"negative {what} {n}") else pure n.toNat

def sendValue (sender receiver : Address) (value : Nat) : HostM Bool := do
  if value = 0 then pure true
  else
    match ← HostM.ask (.transferBalance sender receiver (.ofNat value)) with
    | .ok _ => pure true
    | .error _ => pure false

def callContract (c : Caller) (target function functionLen params paramsLen fuel value : Int) :
    HostM Reply := do
  let call ← c.call
  let delegate ← c.delegateAt call.depth
  let target ← c.readAddress target
  let function ← c.readText function functionLen
  let params ← c.read params paramsLen
  let fuel ← unsigned fuel "fuel budget"
  let value ← unsigned value "call value"
  consumeFuel fuel
  -- the value stays where it is sent, whatever becomes of the call
  if ← sendValue call.contract target value then
    let nested := call.nested target function params (.ofNat fuel) (.ofNat value)
    let outcome ← (fun s =>
      let (outcome, world) := delegate.perform nested s.world
      (.ok outcome, { s with world }) : HostM Outcome)
    refundFuel (fuel - outcome.fuelUsed)
    match outcome.output with
    | .ok bytes => pure (.deliver bytes)
    | .error _ => pure (.values [.ofInt64 (-1)])
  else
    refundFuel fuel
    pure (.values [.ofInt64 (-1)])

def runMeter (f : MeterFunction) (arg : Cell) : HostM (List Cell) :=
  match f with
  | .consume => do
    consumeFuel arg.toNat
    pure []
  | .add => do
    addFuel arg.toNat
    pure []
  | .refund => do
    refundFuel arg.toNat
    pure []
  | .consumed => do pure [.ofNat (← get).guest.meter.consumed]
  | .fail =>
    if arg.int32 = 0 then throw (.call (.memoryWrite "from host"))
    else if arg.int32 = 1 then HostM.fail (.missingExport "thing")
    else throw (.other "untyped")

end Caller

def HostFunction.run (c : Caller) (f : HostFunction) (args : List Cell) : HostM Reply := do
  let word (i : Nat) : Int := (args.getD i 0).int32
  let long (i : Nat) : Int := (args.getD i 0).int64
  match f with
  | .writeLog => do
    c.writeLog (word 0) (word 1) (word 2)
    pure (.values [])
  | .getBalance => do pure (.values [.ofInt64 (← c.getBalance (word 0))])
  | .sendBalance => do pure (.values [.ofInt32 (← c.sendBalance (word 0) (long 1))])
  | .getState => do
    pure (.values [.ofInt32 (← c.getState (word 0) (word 1) (word 2) (word 3))])
  | .putState => do
    c.putState (word 0) (word 1) (word 2) (word 3)
    pure (.values [])
  | .deleteState => do pure (.values [.ofInt32 (← c.deleteState (word 0) (word 1))])
  | .setCallResult => do
    c.setCallResult (word 0) (word 1)
    pure (.values [])
  | .remainingFuel => do pure (.values [.ofInt64 (← Caller.remainingFuel)])
  | .deploy => do
    pure (.values [.ofInt32 (← c.deploy (word 0) (word 1) (word 2) (word 3) (word 4))])
  | .callContract =>
    c.callContract (word 0) (word 1) (word 2) (word 3) (word 4) (long 5) (long 6)
  | .meter f => do pure (.values (← Caller.runMeter f (args.getD 0 0)))

end MeteredContracts
