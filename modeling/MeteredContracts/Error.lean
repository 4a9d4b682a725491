import MeteredContracts.Wasm.Numeric

namespace MeteredContracts

inductive LedgerError
  | accountNotFound (account : String)
  | contractNotFound (contract : String)
  | insufficientBalance (available requested : UInt64)
  | backend (text : String)
  deriving DecidableEq, Repr

def LedgerError.message : LedgerError → String
  | .accountNotFound account => s!"No contract bound to account {account}"
  | .contractNotFound contract => s!"No bytecode stored for contract {contract}"
  | .insufficientBalance available requested =>
    s!"Insufficient balance: {available} available, {requested} requested"
  | .backend text => s!"State backend error: {text}"

inductive HostError
  | unknownCall (sandbox : Nat)
  | memoryAccess (reason : String)
  | missingExport (name : String)
  | invalidArgument (reason : String)
  | callDepthExceeded (limit : UInt32)
  | ledger (source : LedgerError)
  deriving DecidableEq, Repr

def HostError.message : HostError → String
  | .unknownCall sandbox => s!"No active call registered for sandbox {sandbox}"
  | .memoryAccess reason => s!"Guest memory access failed: {reason}"
  | .missingExport name => s!"Guest export missing: {name}"
  | .invalidArgument reason => s!"Invalid argument: {reason}"
  | .callDepthExceeded limit => s!"Call depth limit of {limit} exceeded"
  | .ledger source => s!"State access failed: {source.message}"

def HostError.sources : HostError → List String
  | .ledger source => [source.message]
  | _ => []

inductive Stage
  | resolution
  | acquisition
  deriving DecidableEq, Repr

def Stage.name : Stage → String
  | .resolution => "resolution"
  | .acquisition => "module acquisition"

inductive CallError
  | resolution (account : String) (source : LedgerError)
  | byteRetrieval (contract : String) (source : LedgerError)
  | validation (contract reason : String)
  | compilation (reason : String)
  | instantiation (reason : String)
  | exportMissing (name : String)
  | signatureMismatch (name signature : String)
  | memoryWrite (reason : String)
  | fuelExhausted
  | timeout (milliseconds : UInt64)
  | trap (message : String) (code : Option String)
  | serialization (reason : String)
  | cancelled (stage : Stage)
  | host (source : HostError)
  | invalidConfig (reason : String)
  deriving DecidableEq, Repr

namespace CallError

def message : CallError → String
  | .resolution account source => s!"Contract resolution failed for {account}: {source.message}"
  | .byteRetrieval contract source =>
    s!"Failed to retrieve bytecode for contract {contract}: {source.message}"
  | .validation contract reason => s!"Validation failed for contract {contract}: {reason}"
  | .compilation reason => s!"Compilation failed: {reason}"
  | .instantiation reason => s!"Instantiation failed: {reason}"
  | .exportMissing name => s!"Function '{name}' is not exported by the contract"
  | .signatureMismatch name signature =>
    s!"Function '{name}' has an unsupported signature: {signature}"
  | .memoryWrite reason => s!"Failed to write to sandbox memory: {reason}"
  | .fuelExhausted => "Fuel exhausted: compute budget exceeded"
  | .timeout milliseconds => s!"Execution timeout after {milliseconds}ms"
  | .trap message _ => s!"Wasm trap: {message}"
  | .serialization reason => s!"Context serialization failed: {reason}"
  | .cancelled stage => s!"Call cancelled during {stage.name}"
  | .host source => s!"Host function error: {source.message}"
  | .invalidConfig reason => s!"Invalid configuration: {reason}"

def sources : CallError → List String
  | .resolution _ source => [source.message]
  | .byteRetrieval _ source => [source.message]
  | .validation _ reason => [reason]
  | .host source => source.message :: source.sources
  | _ => []

def isResourceLimit : CallError → Bool
  | .fuelExhausted | .timeout _ => true
  | _ => false

def isTrap : CallError → Bool
  | .trap .. => true
  | _ => false

def isHostError : CallError → Bool
  | .host _ => true
  | _ => false

def isPreExecution : CallError → Bool
  | .resolution .. | .byteRetrieval .. | .validation .. | .compilation _ | .exportMissing _
  | .signatureMismatch .. | .serialization _ | .cancelled _ => true
  | _ => false

end CallError

namespace Wasm.Trap

def code : Trap → String
  | .unreachable => "UnreachableCodeReached"
  | .divisionByZero => "IntegerDivisionByZero"
  | .integerOverflow => "IntegerOverflow"
  | .memoryOutOfBounds => "MemoryOutOfBounds"
  | .tableOutOfBounds => "TableOutOfBounds"
  | .nullFunction => "IndirectCallToNull"
  | .badSignature => "BadSignature"
  | .stackOverflow => "StackOverflow"
  | .outOfFuel => "OutOfFuel"
  | .interrupted => "Interrupt"

def all : List Trap :=
  [.unreachable, .divisionByZero, .integerOverflow, .memoryOutOfBounds, .tableOutOfBounds,
    .nullFunction, .badSignature, .stackOverflow, .outOfFuel, .interrupted]

def text (t : Trap) : String :=
  "wasm trap: " ++ match t with
    | .unreachable => "wasm `unreachable` instruction executed"
    | .divisionByZero => "integer divide by zero"
    | .integerOverflow => "integer overflow"
    | .memoryOutOfBounds => "out of bounds memory access"
    | .tableOutOfBounds => "undefined element: out of bounds table access"
    | .nullFunction => "uninitialized element"
    | .badSignature => "indirect call type mismatch"
    | .stackOverflow => "call stack exhausted"
    | .outOfFuel => "all fuel consumed by WebAssembly"
    | .interrupted => "interrupt"

end Wasm.Trap

inductive Failure
  | trap (trap : Wasm.Trap)
  | host (error : HostError)
  | call (error : CallError)
  | other (text : String)
  deriving DecidableEq, Repr

def Failure.classify (message : Wasm.Trap → String) (timeout : UInt64) : Failure → CallError
  | .call error => error
  | .host error => .host error
  | .trap .outOfFuel => .fuelExhausted
  | .trap .interrupted => .timeout timeout
  | .trap t => .trap (message t) (some t.code)
  | .other text => .trap text none

end MeteredContracts
