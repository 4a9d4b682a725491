import MeteredContracts.Text.Hex

namespace MeteredContracts

@[ext]
structure ContractId where
  bytes : Bytes
  deriving DecidableEq, Inhabited

namespace ContractId

def ofText (s : String) : ContractId := ⟨.ofText s⟩

def size (id : ContractId) : Nat := id.bytes.length

def toText (id : ContractId) : String := Hex.encode id.bytes

instance : ToString ContractId := ⟨toText⟩

def debugText (id : ContractId) : String := s!"ContractId({id})"

instance : Ord ContractId := ⟨fun a b => compare a.bytes b.bytes⟩

end ContractId

end MeteredContracts
