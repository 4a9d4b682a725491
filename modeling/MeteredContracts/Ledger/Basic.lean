import MeteredContracts.Error
import MeteredContracts.Hash.Sha256
import MeteredContracts.Identifier.Address
import MeteredContracts.Identifier.ContractId
import MeteredContracts.Table

namespace MeteredContracts

structure Ledger where
  balances : Table Address UInt64 := .empty
  accounts : Table Address ContractId := .empty
  code : Table ContractId Bytes := .empty
  storage : Table (Address × Bytes) Bytes := .empty
  nonce : UInt64 := 0
  deriving Inhabited

namespace Ledger

def balance (l : Ledger) (a : Address) : UInt64 := (l.balances.get? a).getD 0

def setBalance (l : Ledger) (a : Address) (amount : UInt64) : Ledger :=
  { l with balances := l.balances.insert a amount }

/-- A transfer to oneself changes nothing, whatever the amount. What has been debited is put back
where it cannot be credited. Accounts that are looked at have an entry from then on. -/
def transfer (l : Ledger) (sender receiver : Address) (amount : UInt64) :
    Except LedgerError Unit × Ledger :=
  if sender = receiver then (.ok (), l)
  else
    let available := l.balance sender
    if available < amount then
      (.error (.insufficientBalance available amount), l.setBalance sender available)
    else
      let l := l.setBalance sender (available - amount)
      let held := l.balance receiver
      if UInt64.size ≤ held.toNat + amount.toNat then
        let l := l.setBalance receiver held
        let restored := min ((l.balance sender).toNat + amount.toNat) (UInt64.size - 1)
        (.error (.backend s!"balance overflow for {receiver}"),
          l.setBalance sender (.ofNat restored))
      else (.ok (), l.setBalance receiver (held + amount))

def stored (l : Ledger) (a : Address) (key : Bytes) : Option Bytes := l.storage.get? (a, key)

def put (l : Ledger) (a : Address) (key value : Bytes) : Ledger :=
  { l with storage := l.storage.insert (a, key) value }

def delete (l : Ledger) (a : Address) (key : Bytes) : Bool × Ledger :=
  (l.storage.contains (a, key), { l with storage := l.storage.erase (a, key) })

def accountContract (l : Ledger) (a : Address) : Except LedgerError ContractId :=
  match l.accounts.get? a with
  | some id => .ok id
  | none => .error (.accountNotFound a.toText)

def contractBytes (l : Ledger) (id : ContractId) : Except LedgerError Bytes :=
  match l.code.get? id with
  | some bytes => .ok bytes
  | none => .error (.contractNotFound id.toText)

def bindAccount (l : Ledger) (a : Address) (id : ContractId) : Ledger :=
  { l with accounts := l.accounts.insert a id }

def storeCode (l : Ledger) (id : ContractId) (bytes : Bytes) : Ledger :=
  { l with code := l.code.insert id bytes }

def deploy (l : Ledger) (a : Address) (id : ContractId) (bytes : Bytes) : Ledger :=
  (l.storeCode id bytes).bindAccount a id

def newAddress (id : ContractId) (data : Bytes) (nonce : UInt64) : Address :=
  .ofParts 0 (Sha256.hash (id.bytes ++ data ++ Bytes.ofNatLE 8 nonce.toNat))

def newAccount (l : Ledger) (id : ContractId) (data : Bytes) :
    Except LedgerError Address × Ledger :=
  if l.code.contains id then
    let a := newAddress id data l.nonce
    (.ok a, { l.bindAccount a id with nonce := l.nonce + 1 })
  else (.error (.contractNotFound id.toText), l)

end Ledger

end MeteredContracts
