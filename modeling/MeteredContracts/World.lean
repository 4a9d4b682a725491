import MeteredContracts.Call.Registry
import MeteredContracts.Ledger.Request
import MeteredContracts.Loading.Cache
import MeteredContracts.Sandbox.Clock
import MeteredContracts.Statistics

namespace MeteredContracts

inductive LogLevel
  | debug
  | info
  | warn
  | error
  deriving DecidableEq, Repr

namespace LogLevel

def ofInt (n : Int) : LogLevel :=
  if n = 0 then .debug else if n = 2 then .warn else if n = 3 then .error else .info

def name : LogLevel → String
  | .debug => "DEBUG"
  | .info => "INFO"
  | .warn => "WARN"
  | .error => "ERROR"

def debugText : LogLevel → String
  | .debug => "Debug"
  | .info => "Info"
  | .warn => "Warn"
  | .error => "Error"

end LogLevel

inductive Event
  | request (request : Request)
  | validation (size : Nat)
  | cacheLookup (id : ContractId) (hit : Bool)
  | cacheStore (id : ContractId) (digest : String)
  | line (level : LogLevel) (contract : Option Address) (message : String)
  | lostLine (error : HostError)
  | delegated (call : Call)

structure World where
  service : Service := {}
  registry : Registry := .empty
  statistics : Statistics := {}
  cache : ArtifactCache := .forgetful
  nextSandbox : Nat := 1
  clock : Clock := {}
  journal : Array Event := #[]

namespace World

instance : Inhabited World := ⟨{}⟩

def note (w : World) (e : Event) : World := { w with journal := w.journal.push e }

def ask (w : World) (r : Request) : Except LedgerError r.Answer × World :=
  let (answer, service) := w.service.ask r
  (answer, { w.note (.request r) with service })

end World

end MeteredContracts
