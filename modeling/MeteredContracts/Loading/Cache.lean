import MeteredContracts.Identifier.ContractId
import MeteredContracts.Loading.Artifact
import MeteredContracts.Table

namespace MeteredContracts

structure CacheEntry (α : Type) where
  id : ContractId
  value : α
  size : Nat

/-- Sizes are of things in memory, so that no sum of them exceeds a machine word. -/
def CacheEntry.cost {α : Type} (e : CacheEntry α) : Nat := e.id.size + e.size

/-- Entries stand in the order of their last use, the latest first. What they cost together is kept
on account, and not added up. -/
structure BoundedCache (α : Type) where
  budget : Nat
  entries : List (CacheEntry α) := []
  used : Nat := 0

namespace BoundedCache

variable {α : Type}

def size (c : BoundedCache α) : Nat := c.entries.length

def find? (c : BoundedCache α) (id : ContractId) : Option (CacheEntry α) :=
  c.entries.find? fun e => e.id = id

def contains (c : BoundedCache α) (id : ContractId) : Bool := (c.find? id).isSome

def others (c : BoundedCache α) (id : ContractId) : List (CacheEntry α) :=
  c.entries.filter fun e => !decide (e.id = id)

def get (c : BoundedCache α) (id : ContractId) : Option α × BoundedCache α :=
  match c.find? id with
  | none => (none, c)
  | some e => (some e.value, { c with entries := e :: c.others id })

def remove (c : BoundedCache α) (id : ContractId) : Option α × BoundedCache α :=
  match c.find? id with
  | none => (none, c)
  | some e => (some e.value, { c with entries := c.others id, used := c.used - e.cost })

/-- Gives up entries until the account is down to `room`, or there are none. Here the entries stand
the other way round, so that the one goes first that has not been used for the longest time. -/
def evict (room : Nat) : List (CacheEntry α) → Nat → List (CacheEntry α) × Nat
  | [], used => ([], used)
  | e :: newer, used => if used ≤ room then (e :: newer, used) else evict room newer (used - e.cost)

def put (c : BoundedCache α) (id : ContractId) (value : α) (size : Nat) : BoundedCache α :=
  let e : CacheEntry α := ⟨id, value, size⟩
  -- what is too large is turned away before the older entry is taken out
  if c.budget < e.cost then c
  else
    let c := (c.remove id).2
    let (kept, used) := evict (c.budget - e.cost) c.entries.reverse c.used
    { c with entries := e :: kept.reverse, used := used + e.cost }

end BoundedCache

inductive ArtifactCache
  | bounded (cache : BoundedCache Artifact)
  | unbounded (table : Table ContractId Artifact)
  | forgetful

namespace ArtifactCache

def reports : ArtifactCache → Bool
  | .bounded _ => false
  | .unbounded _ | .forgetful => true

def get (c : ArtifactCache) (id : ContractId) : Option Artifact × ArtifactCache :=
  match c with
  | .bounded cache =>
    let (found, cache) := cache.get id
    (found, .bounded cache)
  | .unbounded table => (table.get? id, c)
  | .forgetful => (none, c)

def put (c : ArtifactCache) (id : ContractId) (a : Artifact) : ArtifactCache :=
  match c with
  | .bounded cache => .bounded (cache.put id a a.size)
  | .unbounded table => .unbounded (table.insert id a)
  | .forgetful => .forgetful

end ArtifactCache

end MeteredContracts
