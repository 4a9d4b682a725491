import MeteredContracts.Call.Basic

namespace MeteredContracts

structure CallTemplate where
  defaults : Call

namespace CallTemplate

def ofCall (c : Call) (fuel : UInt64) : CallTemplate :=
  ⟨if c.fuel = 0 then { c with fuel } else c⟩

def withActor (t : CallTemplate) (actor : Address) : CallTemplate := ⟨{ t.defaults with actor }⟩

def withFuel (t : CallTemplate) (fuel : UInt64) : CallTemplate := ⟨{ t.defaults with fuel }⟩

def withBlock (t : CallTemplate) (height timestamp : UInt64) : CallTemplate :=
  ⟨{ t.defaults with height, timestamp }⟩

def withAction (t : CallTemplate) (action : ActionId) : CallTemplate :=
  ⟨{ t.defaults with action }⟩

def call (t : CallTemplate) (contract : Address) (function : String) (params : Bytes) : Call :=
  { t.defaults with contract, function, params, value := 0, depth := 0, sandbox := none }

def debugText (t : CallTemplate) : String :=
  s!"CallContext \x7b defaults: {t.defaults.debugText}, .. \x7d"

end CallTemplate

end MeteredContracts
