import MeteredContracts.Identifier.ActionId
import MeteredContracts.Identifier.Address

namespace MeteredContracts

structure Context where
  contract : Address
  actor : Address
  height : UInt64
  timestamp : UInt64
  action : ActionId
  deriving DecidableEq

namespace Context

def size : Nat := 114

def encode (c : Context) : Bytes :=
  c.contract.bytes ++ (c.actor.bytes ++ (Bytes.ofNatLE 8 c.height.toNat ++
    (Bytes.ofNatLE 8 c.timestamp.toNat ++ c.action.bytes)))

theorem length_encode (c : Context) : c.encode.length = size := by
  simp [encode, size, c.contract.length_eq, c.actor.length_eq, c.action.length_eq,
    Bytes.length_ofNatLE]

def payload (c : Context) (params : Bytes) : Bytes := c.encode ++ params

def decode (bs : Bytes) : Option Context := do
  let contract ← Address.ofBytes? (bs.take 33)
  let actor ← Address.ofBytes? ((bs.drop 33).take 33)
  let height := (bs.drop 66).take 8
  let timestamp := (bs.drop 74).take 8
  let action ← ActionId.ofBytes? ((bs.drop 82).take 32)
  some {
    contract, actor, action
    height := .ofNat (Bytes.toNatLE height)
    timestamp := .ofNat (Bytes.toNatLE timestamp) }

def tooShort : String := "io error: unexpected end of file"

end Context

end MeteredContracts
