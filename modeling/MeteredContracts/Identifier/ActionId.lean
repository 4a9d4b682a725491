import MeteredContracts.Text.Hex

namespace MeteredContracts

@[ext]
structure ActionId where
  bytes : Bytes
  length_eq : bytes.length = 32
  deriving DecidableEq

namespace ActionId

def zero : ActionId := ⟨List.replicate 32 0, rfl⟩

instance : Inhabited ActionId := ⟨zero⟩

def ofBytes? (bs : Bytes) : Option ActionId :=
  if h : bs.length = 32 then some ⟨bs, h⟩ else none

def isZero (a : ActionId) : Bool := a == zero

def toText (a : ActionId) : String := Hex.encode a.bytes

instance : ToString ActionId := ⟨toText⟩

def debugText (a : ActionId) : String := s!"ActionId({a})"

end ActionId

end MeteredContracts
