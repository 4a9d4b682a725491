import MeteredContracts.Decimal.Shortest
import MeteredContracts.Document.Basic
import MeteredContracts.Identifier.ActionId
import MeteredContracts.Identifier.Address
import MeteredContracts.Identifier.ContractId

namespace MeteredContracts

def Bytes.toDocument (bs : Bytes) : Document := .list (bs.map fun b => .int b.toNat)

def Address.toDocument (a : Address) : Document := a.bytes.toDocument

def ContractId.toDocument (id : ContractId) : Document := id.bytes.toDocument

def ActionId.toDocument (a : ActionId) : Document := a.bytes.toDocument

inductive DecodeError
  | type (found : Document) (expected : String)
  | value (found : Int) (expected : String)
  | length (actual : Nat) (expected : String)

namespace Document

def describe : Document → String
  | .null => "null"
  | .bool b => s!"boolean `{b}`"
  | .int n => s!"integer `{n}`"
  | .float x => s!"floating point `{Decimal.text x}`"
  | .unreadable => "unreadable"
  | .text s => s!"string {Quoted.text s}"
  | .list _ => "sequence"
  | .table _ => "map"

end Document

def DecodeError.message : DecodeError → String
  | .type found expected => s!"invalid type: {found.describe}, expected {expected}"
  | .value found expected => s!"invalid value: integer `{found}`, expected {expected}"
  | .length actual expected => s!"invalid length {actual}, expected {expected}"

def UInt8.ofDocument : Document → Except DecodeError UInt8
  | .int n => if 0 ≤ n ∧ n < 256 then .ok (.ofNat n.toNat) else .error (.value n "u8")
  | d => .error (.type d "u8")

def Document.elements (expected : String) : Document → Except DecodeError (List Document)
  | .list items => .ok items
  | d => .error (.type d expected)

def Bytes.ofElements (size : Nat) (expected : String) (items : List Document) :
    Except DecodeError { bs : Bytes // bs.length = size } := do
  let bs ← (items.take size).mapM UInt8.ofDocument
  if h : bs.length = size then
    if size < items.length then .error (.length items.length "fewer elements in array")
    else .ok ⟨bs, h⟩
  else .error (.length bs.length expected)

def Address.ofDocument (d : Document) : Except DecodeError Address := do
  let expected := "33 address bytes"
  let ⟨bs, h⟩ ← Bytes.ofElements 33 expected (← d.elements expected)
  .ok ⟨bs, h⟩

def ActionId.ofDocument (d : Document) : Except DecodeError ActionId := do
  let expected := "an array of length 32"
  let ⟨bs, h⟩ ← Bytes.ofElements 32 expected (← d.elements expected)
  .ok ⟨bs, h⟩

def ContractId.ofDocument (d : Document) : Except DecodeError ContractId := do
  let bs ← (← d.elements "a sequence").mapM UInt8.ofDocument
  .ok ⟨bs⟩

end MeteredContracts
