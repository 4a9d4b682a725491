import MeteredContracts.Loading.Validator
import MeteredContracts.World

/-!
From the name of a contract to an artifact that has the entry wanted: out of the cache, or else out
of the ledger by way of the validator and the compiler. Only what has passed all of these is cached.
-/

namespace MeteredContracts

structure Loaded where
  artifact : Artifact
  cacheHit : Bool

/-- What holds before a sandbox is set up can be given up by the caller, who polls a cancellation
before each poll of the work. A cancellation is given by the number of polls that it lets pass, and
`none` never comes. -/
abbrev Cancellation := Option Nat

/-- Does work that takes `rounds` polls, unless the cancellation comes first. Then `begun` is the
world after the work's first poll. -/
def Stage.race {α : Type} (stage : Stage) (cancel : Cancellation) (rounds : Nat) (w begun : World)
    (work : World → Except CallError α × World) : Except CallError (α × Cancellation) × World :=
  match cancel with
  | some 0 => (.error (.cancelled stage), w)
  | cancel =>
    if cancel.any (· < rounds) then (.error (.cancelled stage), begun)
    else
      match work w with
      | (.ok a, w) => (.ok (a, cancel.map (· - rounds)), w)
      | (.error e, w) => (.error e, w)

namespace World

def noteIf (w : World) (b : Bool) (e : Event) : World := if b then w.note e else w

def lookUp (w : World) (id : ContractId) : Option Artifact × World :=
  let (found, cache) := w.cache.get id
  (found, { w.noteIf w.cache.reports (.cacheLookup id found.isSome) with cache })

def keep (w : World) (id : ContractId) (a : Artifact) : World :=
  { w.noteIf w.cache.reports (.cacheStore id a.digest) with cache := w.cache.put id a }

def validate (w : World) (validator : Option Validator) (id : ContractId) (bytes : Bytes) :
    Except CallError Unit × World :=
  match validator with
  | none => (.ok (), w)
  | some v =>
    let w := w.noteIf v.reports (.validation bytes.length)
    match v.check bytes with
    | .ok _ => (.ok (), w)
    | .error reason => (.error (.validation id.toText reason), w)

def loadCold (w : World) (validator : Option Validator) (id : ContractId) (function : String) :
    Except CallError Artifact × World :=
  match w.ask (.getContractBytes id) with
  | (.error e, w) => (.error (.byteRetrieval id.toText e), w)
  | (.ok bytes, w) =>
    match w.validate validator id bytes with
    | (.error e, w) => (.error e, w)
    | (.ok _, w) =>
      match Artifact.compile bytes with
      | .error e => (.error e, w)
      | .ok a =>
        match a.checkEntry function with
        | .error e => (.error e, w)
        | .ok _ => (.ok a, w.keep id a)

def load (w : World) (validator : Option Validator) (id : ContractId) (function : String)
    (cancel : Cancellation) : Except CallError (Loaded × Cancellation) × World :=
  match w.lookUp id with
  | (some a, hit) =>
    Stage.acquisition.race cancel 1 w hit fun _ =>
      ((a.checkEntry function).map fun _ => ⟨a, true⟩, hit)
  | (none, miss) =>
    let rounds := 1 + w.service.delay .getContractBytes
    let begun := miss.note (.request (.getContractBytes id))
    Stage.acquisition.race cancel rounds w begun fun _ =>
      match miss.loadCold validator id function with
      | (.ok a, w) => (.ok ⟨a, false⟩, w)
      | (.error e, w) => (.error e, w)

end World

end MeteredContracts
