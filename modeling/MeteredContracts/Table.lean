namespace MeteredContracts

structure Table (κ α : Type) where
  entries : List (κ × α)
  nodup : (entries.map Prod.fst).Nodup

namespace Table

variable {κ α : Type} [DecidableEq κ]

def empty : Table κ α := ⟨[], .nil⟩

instance : Inhabited (Table κ α) := ⟨empty⟩

def find (k : κ) : List (κ × α) → Option α
  | [] => none
  | (k', a) :: l => if k = k' then some a else find k l

def get? (t : Table κ α) (k : κ) : Option α := find k t.entries

def contains (t : Table κ α) (k : κ) : Bool := (t.get? k).isSome

def size (t : Table κ α) : Nat := t.entries.length

def without (l : List (κ × α)) (k : κ) : List (κ × α) := l.filter fun e => !decide (e.1 = k)

theorem nodup_without {l : List (κ × α)} (h : (l.map Prod.fst).Nodup) (k : κ) :
    ((without l k).map Prod.fst).Nodup :=
  h.sublist (List.filter_sublist.map _)

theorem notMem_without (l : List (κ × α)) (k : κ) : k ∉ (without l k).map Prod.fst := by
  simp [without]

def erase (t : Table κ α) (k : κ) : Table κ α := ⟨without t.entries k, nodup_without t.nodup k⟩

def insert (t : Table κ α) (k : κ) (a : α) : Table κ α :=
  ⟨(k, a) :: without t.entries k,
    List.nodup_cons.mpr ⟨notMem_without t.entries k, nodup_without t.nodup k⟩⟩

@[simp] theorem get?_empty (k : κ) : (empty : Table κ α).get? k = none := rfl

theorem find_without (l : List (κ × α)) (k k' : κ) :
    find k' (without l k) = if k' = k then none else find k' l := by
  induction l with
  | nil => simp [without, find]
  | cons e l ih =>
    obtain ⟨j, a⟩ := e
    by_cases hj : j = k
    · have hw : without ((j, a) :: l) k = without l k := by simp [without, hj]
      by_cases hk : k' = k <;> simp_all [find]
    · have hw : without ((j, a) :: l) k = (j, a) :: without l k := by simp [without, hj]
      by_cases hk : k' = j <;> simp_all [find]

@[simp] theorem get?_erase (t : Table κ α) (k k' : κ) :
    (t.erase k).get? k' = if k' = k then none else t.get? k' :=
  find_without t.entries k k'

@[simp] theorem get?_insert (t : Table κ α) (k k' : κ) (a : α) :
    (t.insert k a).get? k' = if k' = k then some a else t.get? k' := by
  by_cases h : k' = k <;> simp [get?, insert, find, find_without, h]

end Table

end MeteredContracts
