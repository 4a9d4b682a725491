import MeteredContracts.Cli.Arguments
import MeteredContracts.Cli.Files
import MeteredContracts.Config.File
import MeteredContracts.Platform

namespace MeteredContracts.Cli

inductive CliError
  | config (path : String) (source : FileError)
  | configText
  | contract (id path : String) (source : FileError)
  | address (id : String) (source : ParseError)
  | params (source : Hex.Fault)
  | call (source : CallError)

namespace CliError

def message : CliError → String
  | .config path source => s!"Failed to read config file '{path}': {source.message}"
  | .configText => "Failed to parse config file"
  | .contract id path _ => s!"Failed to read contract '{id}' from {path}"
  | .address id _ => s!"Invalid address for contract '{id}'"
  | .params _ => "--params must be hex-encoded"
  | .call source => source.message

def causes : CliError → List String
  | .config _ source => [source.message]
  | .configText => []
  | .contract _ _ source => [source.message]
  | .address _ source => [source.message]
  | .params source => [source.message]
  | .call source => source.sources

end CliError

inductive Exit
  | stopped (why : Stop)
  | failed (error : CliError)
  | done (result : Bytes) (statistics : Statistics)

def Exit.code : Exit → UInt32
  | .stopped .version | .stopped .help | .done .. => 0
  | .failed _ => 1
  | .stopped .usage => 2

def version : String := "contract-runtime 0.1.0"

section

variable {m : Type → Type} [Monad m]

abbrev FileReader (m : Type → Type) := String → m (Except FileError Bytes)

def readConfig (files : FileReader m) : Option String → ExceptT CliError m ConfigFile
  | none => pure {}
  | some path => do
    match ← files path with
    | .error e => throw (.config path e)
    | .ok bytes =>
      match Utf8.decode bytes with
      | .error _ => throw (.config path .notText)
      | .ok text =>
        match ConfigFile.read text with
        | none => throw .configText
        | some file => pure file

def deployAll (files : FileReader m) (entries : List InitialContract) : ExceptT CliError m Ledger :=
  entries.foldlM (fun (l : Ledger) e => do
      match ← files e.path with
      | .error fault => throw (.contract e.id e.path fault)
      | .ok bytes =>
        match Address.parse e.address with
        | .error fault => throw (.address e.id fault)
        | .ok a => pure ((l.deploy a (.ofText e.id) bytes).setBalance a e.balance))
    {}

def callOnce (i : Invocation) (config : Config) (ledger : Ledger) :
    Except CliError (Bytes × Statistics) := do
  let (platform, cache) ← ({ config } : Blueprint).build.mapError .call
  let params ← (Hex.decodeMarked i.params).mapError .params
  let defaults : Call := { fuel := i.fuel.getD 0, actor := i.actor.getD .zero }
  let call := (platform.template defaults).call i.contract i.function params
  let world : World := { service := { ledger }, cache, clock := { driven := true } }
  let (outcome, world) := platform.execute none call world
  match outcome.output with
  | .error e => throw (.call e)
  | .ok result => pure (result, world.statistics)

def perform (files : FileReader m) (i : Invocation) :
    ExceptT CliError m (Bytes × Statistics) := do
  let file ← readConfig files i.config
  let ledger ← deployAll files file.contracts
  callOnce i file.config ledger

def run (files : FileReader m) (environment : Option String) (args : List String) : m Exit := do
  match Invocation.parse environment args with
  | .error why => pure (.stopped why)
  | .ok i =>
    match ← (perform files i).run with
    | .error e => pure (.failed e)
    | .ok (result, statistics) => pure (.done result statistics)

end

end MeteredContracts.Cli
