import MeteredContracts.Loading.Cache

namespace MeteredContracts

inductive CacheUse (α : Type)
  | put (id : ContractId) (value : α) (size : Nat)
  | get (id : ContractId)
  | contains (id : ContractId)
  | remove (id : ContractId)

namespace CacheUse

variable {α : Type}

def Answer : CacheUse α → Type
  | .put .. => Unit
  | .get _ | .remove _ => Option α
  | .contains _ => Bool

def Puts (id : ContractId) : CacheUse α → Prop
  | .put id' _ _ => id' = id
  | _ => False

end CacheUse

namespace BoundedCache

variable {α : Type}

def use (c : BoundedCache α) : (u : CacheUse α) → u.Answer × BoundedCache α
  | .put id value size => ((), c.put id value size)
  | .get id => c.get id
  | .contains id => (c.contains id, c)
  | .remove id => c.remove id

def useAll (c : BoundedCache α) (uses : List (CacheUse α)) : BoundedCache α :=
  uses.foldl (fun c u => (c.use u).2) c

theorem evict_suffix (room : Nat) (entries : List (CacheEntry α)) (used : Nat) :
    (evict room entries used).1 <:+ entries := by
  induction entries generalizing used with
  | nil => exact List.suffix_rfl
  | cons e newer ih =>
    unfold evict
    split
    · exact List.suffix_rfl
    · exact (ih _).trans (List.suffix_cons e newer)

variable (c : BoundedCache α)

theorem others_of_absent {id : ContractId} (h : c.find? id = none) : c.others id = c.entries := by
  unfold others
  rw [List.filter_eq_self]
  intro e he
  simpa using List.find?_eq_none.mp h e he

theorem remove_entries (id : ContractId) : (c.remove id).2.entries = c.others id := by
  unfold remove
  cases h : c.find? id with
  | none => exact (c.others_of_absent h).symm
  | some e => rfl

theorem put_of_fits {id : ContractId} {size : Nat} (value : α) (h : id.size + size ≤ c.budget) :
    c.put id value size =
      let e : CacheEntry α := ⟨id, value, size⟩
      let r := evict (c.budget - e.cost) (c.others id).reverse (c.remove id).2.used
      { c with entries := e :: r.1.reverse, used := r.2 + e.cost } := by
  have hb : (c.remove id).2.budget = c.budget := by
    unfold remove
    cases c.find? id <;> rfl
  have hcost : ¬c.budget < (CacheEntry.mk id value size).cost := Nat.not_lt.mpr h
  unfold put
  dsimp only
  rw [if_neg hcost, c.remove_entries, hb]

theorem put_of_exceeds {id : ContractId} {size : Nat} (value : α)
    (h : c.budget < id.size + size) : c.put id value size = c := if_pos h

theorem use_budget (u : CacheUse α) : (c.use u).2.budget = c.budget := by
  cases u with
  | put id value size =>
    show (c.put id value size).budget = _
    by_cases h : id.size + size ≤ c.budget
    · rw [c.put_of_fits value h]
    · rw [c.put_of_exceeds value (Nat.not_le.mp h)]
  | get id =>
    show (c.get id).2.budget = _
    unfold get
    split <;> rfl
  | contains id => rfl
  | remove id =>
    show (c.remove id).2.budget = _
    unfold remove
    split <;> rfl

theorem useAll_budget (uses : List (CacheUse α)) : (c.useAll uses).budget = c.budget := by
  induction uses generalizing c with
  | nil => rfl
  | cons u uses ih => exact (ih _).trans (c.use_budget u)

theorem get_fst (id : ContractId) : (c.get id).1 = (c.find? id).map (·.value) := by
  unfold get
  cases c.find? id <;> rfl

theorem find?_others {id id' : ContractId} (h : id' ≠ id) :
    (c.others id).find? (fun e => e.id = id') = c.find? id' := by
  unfold others find?
  rw [List.find?_filter]
  congr 1
  funext e
  by_cases he : e.id = id'
  · simp [he, h]
  · simp [he]

theorem find?_get (id id' : ContractId) : (c.get id).2.find? id' = c.find? id' := by
  unfold get
  cases hf : c.find? id with
  | none => rfl
  | some e =>
    have he : e.id = id := by simpa using List.find?_some hf
    show (e :: c.others id).find? _ = _
    by_cases h : id' = id
    · rw [List.find?_cons_of_pos (by simp [he, h]), h, hf]
    · rw [List.find?_cons_of_neg (by simp [he, Ne.symm h])]
      exact c.find?_others h

theorem find?_put_self (id : ContractId) (value : α) (size : Nat) :
    (c.put id value size).find? id =
      if id.size + size ≤ c.budget then some ⟨id, value, size⟩ else c.find? id := by
  by_cases h : id.size + size ≤ c.budget
  · rw [c.put_of_fits value h, if_pos h]
    exact List.find?_cons_of_pos (by simp)
  · rw [c.put_of_exceeds value (Nat.not_le.mp h), if_neg h]

theorem find?_put_other {id id' : ContractId} (value : α) (size : Nat) {e : CacheEntry α}
    (hid : id' ≠ id) (h : (c.put id value size).find? id' = some e) : c.find? id' = some e := by
  by_cases hfits : id.size + size ≤ c.budget
  · rw [c.put_of_fits value hfits] at h
    change List.find? _ (_ :: (evict _ _ _).1.reverse) = _ at h
    rw [List.find?_cons_of_neg (by simp [Ne.symm hid])] at h
    rw [← c.find?_others hid]
    have hkept := evict_suffix (c.budget - (id.size + size)) (c.others id).reverse
      (c.remove id).2.used
    rw [← List.reverse_prefix, List.reverse_reverse] at hkept
    exact hkept.find?_eq_some h
  · rwa [c.put_of_exceeds value (Nat.not_le.mp hfits)] at h

theorem find?_remove {id id' : ContractId} {e : CacheEntry α}
    (h : (c.remove id).2.find? id' = some e) : c.find? id' = some e := by
  have hmem := List.mem_of_find?_eq_some h
  rw [c.remove_entries] at hmem
  have hne : id' ≠ id := by
    rintro rfl
    have he : e.id = id' := by simpa using List.find?_some h
    simp [others, he] at hmem
  rw [← c.find?_others hne, ← c.remove_entries id]
  exact h

theorem find?_use {u : CacheUse α} {id : ContractId} {e : CacheEntry α} (hu : ¬u.Puts id)
    (h : (c.use u).2.find? id = some e) : c.find? id = some e := by
  cases u with
  | put id' value size => exact c.find?_put_other value size (Ne.symm hu) h
  | get id' => exact (c.find?_get id' id).symm.trans h
  | contains id' => exact h
  | remove id' => exact c.find?_remove h

theorem find?_useAll {uses : List (CacheUse α)} {id : ContractId} {e : CacheEntry α}
    (hu : ∀ u ∈ uses, ¬u.Puts id) (h : (c.useAll uses).find? id = some e) :
    c.find? id = some e := by
  induction uses generalizing c with
  | nil => exact h
  | cons u uses ih =>
    have hrest := ih (c.use u).2 (fun u' hu' => hu u' (List.mem_cons_of_mem u hu')) h
    exact c.find?_use (hu u List.mem_cons_self) hrest

/-- Whatever is done with a cache after something was put under a name, a look-up of the name yields
nothing, or what it yields right after the put. That is the value that was put, if it fits in the
budget, and otherwise what the name yielded before. Nothing is found that was never put. -/
theorem serves_latest_that_fits (budget : Nat) (before after : List (CacheUse α))
    (id : ContractId) (value : α) (size : Nat) (hafter : ∀ u ∈ after, ¬u.Puts id) :
    let old := ({ budget } : BoundedCache α).useAll before
    let new := old.put id value size
    (∀ found, ((new.useAll after).get id).1 = some found → (new.get id).1 = some found) ∧
    (new.get id).1 = (if id.size + size ≤ budget then some value else (old.get id).1) ∧
    ((∀ u ∈ before, ¬u.Puts id) → (old.get id).1 = none) := by
  intro old new
  refine ⟨fun found h => ?_, ?_, fun hbefore => ?_⟩
  · rw [get_fst, Option.map_eq_some_iff] at h ⊢
    obtain ⟨e, he, rfl⟩ := h
    exact ⟨e, new.find?_useAll hafter he, rfl⟩
  · have hbudget : old.budget = budget := useAll_budget _ before
    rw [get_fst, get_fst, old.find?_put_self, hbudget]
    split <;> rfl
  · rw [get_fst, Option.map_eq_none_iff]
    cases h : old.find? id with
    | none => rfl
    | some e => cases find?_useAll _ hbefore h

theorem serves_latest_of_two :
    let id : ContractId := ⟨[]⟩
    let after : List (CacheUse Nat) := [.get ⟨[1]⟩, .put ⟨[1]⟩ 8 1, .contains id, .remove ⟨[1]⟩]
    let new := (({ budget := 4 } : BoundedCache Nat).useAll [.put id 5 2]).put id 6 2
    (∀ u ∈ after, ¬u.Puts id) ∧ (new.get id).1 = some 6 ∧
      ((new.useAll after).get id).1 = some 6 ∧
      ∀ found, ((new.useAll after).get id).1 = some found → (new.get id).1 = some found := by
  intro id after new
  have hafter : ∀ u ∈ after, ¬u.Puts id := by simp [after, id, CacheUse.Puts]
  obtain ⟨hserved, hput, -⟩ := serves_latest_that_fits 4 [.put id 5 2] after id 6 2 hafter
  exact ⟨hafter, hput, by decide, hserved⟩

theorem serves_superseded :
    let id : ContractId := ⟨[]⟩
    let old := ({ budget := 4 } : BoundedCache Nat).useAll [.put id 5 2]
    ((old.put id 6 5).get id).1 = some 5 := by
  decide

end BoundedCache

end MeteredContracts
