import MeteredContracts.Ledger.Basic

namespace MeteredContracts

inductive Method
  | getBalance
  | transferBalance
  | getState
  | putState
  | deleteState
  | getAccountContract
  | getContractBytes
  | newAccount
  | setAccountContract
  | setContractBytes
  deriving DecidableEq, Repr

namespace Method

def name : Method → String
  | .getBalance => "get_balance"
  | .transferBalance => "transfer_balance"
  | .getState => "get_state"
  | .putState => "put_state"
  | .deleteState => "delete_state"
  | .getAccountContract => "get_account_contract"
  | .getContractBytes => "get_contract_bytes"
  | .newAccount => "new_account_with_contract"
  | .setAccountContract => "set_account_contract"
  | .setContractBytes => "set_contract_bytes"

def all : List Method :=
  [.getBalance, .transferBalance, .getState, .putState, .deleteState, .getAccountContract,
    .getContractBytes, .newAccount, .setAccountContract, .setContractBytes]

def ofName? (name : String) : Option Method := all.find? (·.name == name)

end Method

inductive Request
  | getBalance (account : Address)
  | transferBalance (sender receiver : Address) (amount : UInt64)
  | getState (account : Address) (key : Bytes)
  | putState (account : Address) (key value : Bytes)
  | deleteState (account : Address) (key : Bytes)
  | getAccountContract (account : Address)
  | getContractBytes (contract : ContractId)
  | newAccount (contract : ContractId) (data : Bytes)
  | setAccountContract (account : Address) (contract : ContractId)
  | setContractBytes (contract : ContractId) (bytes : Bytes)
  deriving DecidableEq

namespace Request

def method : Request → Method
  | .getBalance .. => .getBalance
  | .transferBalance .. => .transferBalance
  | .getState .. => .getState
  | .putState .. => .putState
  | .deleteState .. => .deleteState
  | .getAccountContract .. => .getAccountContract
  | .getContractBytes .. => .getContractBytes
  | .newAccount .. => .newAccount
  | .setAccountContract .. => .setAccountContract
  | .setContractBytes .. => .setContractBytes

abbrev Answer : Request → Type
  | .getBalance .. => UInt64
  | .getState .. => Option Bytes
  | .deleteState .. => Bool
  | .getAccountContract .. => ContractId
  | .getContractBytes .. => Bytes
  | .newAccount .. => Address
  | .transferBalance .. | .putState .. | .setAccountContract .. | .setContractBytes .. => Unit

end Request

def Ledger.serve (l : Ledger) : (r : Request) → Except LedgerError r.Answer × Ledger
  | .getBalance a => (.ok (l.balance a), l)
  | .transferBalance sender receiver amount => l.transfer sender receiver amount
  | .getState a key => (.ok (l.stored a key), l)
  | .putState a key value => (.ok (), l.put a key value)
  | .deleteState a key => (.ok (l.delete a key).1, (l.delete a key).2)
  | .getAccountContract a => (l.accountContract a, l)
  | .getContractBytes id => (l.contractBytes id, l)
  | .newAccount id data => l.newAccount id data
  | .setAccountContract a id => (.ok (), l.bindAccount a id)
  | .setContractBytes id bytes => (.ok (), l.storeCode id bytes)

/-- A ledger that answers from afar: a method may be out of order, or keep its caller waiting for a
number of polls. -/
structure Service where
  ledger : Ledger := {}
  outages : Table Method String := .empty
  delays : Table Method Nat := .empty
  deriving Inhabited

namespace Service

def delay (s : Service) (m : Method) : Nat := (s.delays.get? m).getD 0

def ask (s : Service) (r : Request) : Except LedgerError r.Answer × Service :=
  match s.outages.get? r.method with
  | some text => (.error (.backend text), s)
  | none =>
    let (answer, ledger) := s.ledger.serve r
    (answer, { s with ledger })

end Service

end MeteredContracts
