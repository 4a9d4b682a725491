import MeteredContracts.Config.Decode
import MeteredContracts.Document.Toml

namespace MeteredContracts

structure InitialContract where
  id : String
  path : String
  address : String
  balance : UInt64 := 0
  deriving DecidableEq, Repr, Inhabited

structure ConfigFile where
  config : Config := {}
  contracts : List InitialContract := []
  deriving DecidableEq, Repr, Inhabited

def InitialContract.toDocument (e : InitialContract) : Document :=
  .table [
    ("id", .text e.id),
    ("path", .text e.path),
    ("address", .text e.address),
    ("balance", .int e.balance.toNat)]

def InitialContract.ofDocument (d : Document) : Option InitialContract := do
  let fields ← d.record .allowed ["id", "path", "address", "balance"]
  some {
    id := ← fields.required "id" Document.text?
    path := ← fields.required "path" Document.text?
    address := ← fields.required "address" Document.text?
    balance := ← fields.optional "balance" Document.uint64? 0 }

namespace ConfigFile

def toDocument (f : ConfigFile) : Document :=
  .table [
    ("runtime", f.config.toDocument),
    ("contracts", .list (f.contracts.map InitialContract.toDocument))]

def contracts? : Document → Option (List InitialContract)
  | .list items => items.mapM InitialContract.ofDocument
  | _ => none

def ofDocument (d : Document) : Option ConfigFile := do
  let fields ← d.record .allowed ["runtime", "contracts"]
  some {
    config := ← fields.optional "runtime" (Config.ofDocument .allowed) {}
    contracts := ← fields.optional "contracts" contracts? [] }

def read (text : String) : Option ConfigFile := (Document.Toml.read text).bind ofDocument

end ConfigFile

end MeteredContracts
