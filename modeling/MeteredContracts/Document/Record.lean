import MeteredContracts.Document.Basic

/-!
Reading records from documents. A record is written as a table or as the list of its values in the
order of its fields, from the end of which any number may be missing.
-/

namespace MeteredContracts.Document

inductive Surplus
  | allowed
  | refused
  deriving DecidableEq, Repr

structure Fields where
  entries : List (String × Document)

def record (surplus : Surplus) (names : List String) : Document → Option Fields
  | .table fields =>
    if names.all fun name => (fields.filter (·.1 == name)).length ≤ 1 then some ⟨fields⟩ else none
  | .list items =>
    if surplus = .allowed ∨ items.length ≤ names.length then some ⟨names.zip items⟩ else none
  | _ => none

def Fields.required {α : Type} (fields : Fields) (name : String) (read : Document → Option α) :
    Option α :=
  (fields.entries.lookup name).bind read

def Fields.optional {α : Type} (fields : Fields) (name : String) (read : Document → Option α)
    (default : α) : Option α :=
  match fields.entries.lookup name with
  | none => some default
  | some d => read d

def bool? : Document → Option Bool
  | .bool b => some b
  | _ => none

def text? : Document → Option String
  | .text s => some s
  | _ => none

def nat? (bound : Nat) : Document → Option Nat
  | .int n => if 0 ≤ n ∧ n < bound then some n.toNat else none
  | _ => none

def uint32? (d : Document) : Option UInt32 := (d.nat? UInt32.size).map UInt32.ofNat

def uint64? (d : Document) : Option UInt64 := (d.nat? UInt64.size).map UInt64.ofNat

end MeteredContracts.Document
