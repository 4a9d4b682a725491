import MeteredContracts.Call.Context
import MeteredContracts.Identifier.ContractId
import MeteredContracts.Text.Quoted

namespace MeteredContracts

structure Call where
  contract : Address := .zero
  actor : Address := .zero
  function : String := ""
  params : Bytes := []
  fuel : UInt64 := 0
  height : UInt64 := 0
  timestamp : UInt64 := 0
  action : ActionId := .zero
  value : UInt64 := 0
  depth : UInt32 := 0
  sandbox : Option Nat := none
  deriving DecidableEq, Inhabited

namespace Call

def context (c : Call) : Context :=
  ⟨c.contract, c.actor, c.height, c.timestamp, c.action⟩

def payload (c : Call) : Bytes := c.context.payload c.params

def nested (c : Call) (contract : Address) (function : String) (params : Bytes)
    (fuel value : UInt64) : Call :=
  { contract, function, params, fuel, value
    actor := c.contract
    height := c.height
    timestamp := c.timestamp
    action := c.action
    depth := c.depth + 1 }

def debugText (c : Call) : String :=
  let sandbox := match c.sandbox with
    | none => "None"
    | some id => s!"Some(SandboxId({id}))"
  s!"CallInfo \x7b contract: {c.contract.debugText}, actor: {c.actor.debugText}, " ++
    s!"function_name: {Quoted.text c.function}, params_len: {c.params.length}, " ++
    s!"fuel: {c.fuel}, height: {c.height}, depth: {c.depth}, sandbox: {sandbox}, .. \x7d"

end Call

end MeteredContracts
