import Mathlib.Algebra.GroupWithZero.Nat
import Mathlib.Data.List.Nodup
import MeteredContracts.Proofs.CacheUses

namespace MeteredContracts

def CacheEntry.total {α : Type} (entries : List (CacheEntry α)) : Nat :=
  (entries.map fun e => e.id.size + e.size).sum

inductive CacheEntry.Parts {α : Type} (id : ContractId) :
    List (CacheEntry α) → Option (CacheEntry α) → List (CacheEntry α) → Prop
  | found {before after : List (CacheEntry α)} {e : CacheEntry α} :
      e.id = id → Parts id (before ++ e :: after) (some e) (before ++ after)
  | absent {entries : List (CacheEntry α)} :
      (∀ e ∈ entries, e.id ≠ id) → Parts id entries none entries

structure CacheEntry.LongestRun {α : Type} (room : Nat) (entries kept : List (CacheEntry α)) :
    Prop where
  run : kept <+: entries
  fits : total kept ≤ room
  longest : ∀ more, more <+: entries → total more ≤ room → more <+: kept

/-- What a use answers and makes of the entries, which stand in the order of their last use with the
latest first. Of a value that exceeds the budget it is only said that the other entries stay. -/
inductive LeastRecentlyUsed {α : Type} (budget : Nat) :
    List (CacheEntry α) → (u : CacheUse α) → u.Answer → List (CacheEntry α) → Prop
  | get {id : ContractId} {entries others : List (CacheEntry α)} {e : Option (CacheEntry α)} :
      CacheEntry.Parts id entries e others →
      LeastRecentlyUsed budget entries (.get id) (e.map (·.value)) (e.toList ++ others)
  | contains {id : ContractId} {entries others : List (CacheEntry α)}
      {e : Option (CacheEntry α)} : CacheEntry.Parts id entries e others →
      LeastRecentlyUsed budget entries (.contains id) e.isSome entries
  | remove {id : ContractId} {entries others : List (CacheEntry α)} {e : Option (CacheEntry α)} :
      CacheEntry.Parts id entries e others →
      LeastRecentlyUsed budget entries (.remove id) (e.map (·.value)) others
  | put {id : ContractId} {value : α} {size : Nat} {entries others kept : List (CacheEntry α)}
      {e : Option (CacheEntry α)} : id.size + size ≤ budget →
      CacheEntry.Parts id entries e others →
      CacheEntry.LongestRun (budget - (id.size + size)) others kept →
      LeastRecentlyUsed budget entries (.put id value size) () (⟨id, value, size⟩ :: kept)
  | exceeds {id : ContractId} {value : α} {size : Nat}
      {entries entries' others : List (CacheEntry α)} {e e' : Option (CacheEntry α)} :
      budget < id.size + size → CacheEntry.Parts id entries e others →
      CacheEntry.Parts id entries' e' others →
      LeastRecentlyUsed budget entries (.put id value size) () entries'

namespace CacheEntry

variable {α : Type} {id : ContractId} {entries others : List (CacheEntry α)}
  {e : Option (CacheEntry α)}

theorem total_append (l l' : List (CacheEntry α)) : total (l ++ l') = total l + total l' := by
  simp only [total, List.map_append, List.sum_append]

theorem total_cons (e : CacheEntry α) (l : List (CacheEntry α)) :
    total (e :: l) = e.cost + total l := rfl

theorem total_reverse (l : List (CacheEntry α)) : total l.reverse = total l := by
  simp only [total, List.map_reverse, List.sum_reverse]

theorem Parts.total_eq (h : Parts id entries e others) :
    total entries = total e.toList + total others := by
  cases h with
  | @found before after e =>
    simp only [total_append, total_cons, Option.toList_some]
    simp only [total, List.map_nil, List.sum_nil]
    omega
  | absent => simp only [Option.toList_none, total, List.map_nil, List.sum_nil, Nat.zero_add]

theorem Parts.perm (h : Parts id entries e others) : entries.Perm (e.toList ++ others) := by
  cases h with
  | found => exact List.perm_middle
  | absent => exact .refl _

theorem Parts.sublist (h : Parts id entries e others) : others.Sublist entries := by
  cases h with
  | @found before after e =>
    exact (List.Sublist.refl before).append (List.sublist_cons_self e after)
  | absent => exact .refl _

theorem evict_longest (room : Nat) (oldest : List (CacheEntry α)) :
    let r := BoundedCache.evict room oldest (total oldest)
    r.2 = total r.1 ∧ r.2 ≤ room ∧ ∀ more, more <:+ oldest → total more ≤ room → more <:+ r.1 := by
  induction oldest with
  | nil => exact ⟨rfl, Nat.zero_le room, fun more h _ => h⟩
  | cons e newer ih =>
    unfold BoundedCache.evict
    by_cases hfits : total (e :: newer) ≤ room
    · rw [if_pos hfits]
      exact ⟨rfl, hfits, fun more h _ => h⟩
    · rw [if_neg hfits, total_cons, Nat.add_sub_cancel_left]
      refine ⟨ih.1, ih.2.1, fun more hmore hroom => ?_⟩
      obtain rfl | hmore := List.suffix_cons_iff.mp hmore
      · exact absurd hroom hfits
      · exact ih.2.2 more hmore hroom

theorem longestRun_evict (room : Nat) (entries : List (CacheEntry α)) :
    LongestRun room entries
      (BoundedCache.evict room entries.reverse (total entries)).1.reverse := by
  obtain ⟨hused, hroom, hlongest⟩ := evict_longest room entries.reverse
  have hsuffix := BoundedCache.evict_suffix room entries.reverse (total entries.reverse)
  rw [total_reverse] at hused hroom hlongest hsuffix
  refine ⟨?_, ?_, fun more hmore hfits => ?_⟩
  · rwa [← List.reverse_suffix, List.reverse_reverse]
  · rw [total_reverse]
    exact hused ▸ hroom
  · rw [← List.reverse_suffix, List.reverse_reverse]
    exact hlongest _ (List.reverse_suffix.mpr hmore) (by rwa [total_reverse])

end CacheEntry

namespace BoundedCache

variable {α : Type}

structure Sound (c : BoundedCache α) : Prop where
  used : c.used = CacheEntry.total c.entries
  within : c.used ≤ c.budget
  nodup : (c.entries.map (·.id)).Nodup

variable {c : BoundedCache α}

theorem Sound.parts (h : c.Sound) (id : ContractId) :
    CacheEntry.Parts id c.entries (c.find? id) (c.others id) := by
  cases hf : c.find? id with
  | none =>
    rw [c.others_of_absent hf]
    exact .absent fun e he => by simpa using List.find?_eq_none.mp hf e he
  | some e =>
    obtain ⟨hid, before, after, heq, hbefore⟩ := List.find?_eq_some_iff_append.mp hf
    obtain rfl : e.id = id := by simpa using hid
    have hnodup := h.nodup
    rw [heq, List.map_append, List.map_cons, List.nodup_middle, List.nodup_cons,
      ← List.map_append] at hnodup
    have hothers : c.others e.id = before ++ after := by
      have hkept : (before ++ after).filter (fun e' => !decide (e'.id = e.id)) =
          before ++ after := by
        rw [List.filter_eq_self]
        intro e' he'
        have hne : e'.id ≠ e.id := fun heq => hnodup.1 (heq ▸ List.mem_map_of_mem he')
        simpa using hne
      rw [others, heq, List.filter_append, List.filter_cons_of_neg (by simp), ← List.filter_append,
        hkept]
    rw [hothers, heq]
    exact .found rfl

theorem get_eq (c : BoundedCache α) (id : ContractId) :
    c.get id = ((c.find? id).map (·.value),
      { c with entries := (c.find? id).toList ++ c.others id }) := by
  unfold get
  cases h : c.find? id with
  | none =>
    rw [c.others_of_absent h]
    rfl
  | some e => rfl

theorem remove_eq (c : BoundedCache α) (id : ContractId) :
    c.remove id = ((c.find? id).map (·.value),
      { c with
        entries := c.others id
        used := c.used - CacheEntry.total (c.find? id).toList }) := by
  unfold remove
  cases h : c.find? id with
  | none =>
    rw [c.others_of_absent h]
    rfl
  | some e => rfl

theorem Sound.remove (h : c.Sound) (id : ContractId) : (c.remove id).2.Sound := by
  have htotal := (h.parts id).total_eq
  have hused := h.used
  have hwithin := h.within
  rw [c.remove_eq]
  refine ⟨?_, ?_, h.nodup.sublist ((h.parts id).sublist.map _)⟩
  · dsimp only
    omega
  · dsimp only
    omega

theorem Sound.get (h : c.Sound) (id : ContractId) : (c.get id).2.Sound := by
  rw [c.get_eq]
  refine ⟨?_, h.within, ((h.parts id).perm.map _).nodup_iff.mp h.nodup⟩
  rw [CacheEntry.total_append, ← (h.parts id).total_eq]
  exact h.used

theorem Sound.put_eq (h : c.Sound) {id : ContractId} {size : Nat} (value : α)
    (hfits : id.size + size ≤ c.budget) : ∃ kept used, c.put id value size =
        { c with entries := ⟨id, value, size⟩ :: kept, used := used + (id.size + size) } ∧
      used = CacheEntry.total kept ∧
      CacheEntry.LongestRun (c.budget - (id.size + size)) (c.others id) kept := by
  have hused : (c.remove id).2.used = CacheEntry.total (c.others id) := by
    rw [(h.remove id).used, c.remove_entries]
  have hrun := CacheEntry.longestRun_evict (c.budget - (id.size + size)) (c.others id)
  have hkept := (CacheEntry.evict_longest (c.budget - (id.size + size)) (c.others id).reverse).1
  rw [CacheEntry.total_reverse] at hkept
  rw [c.put_of_fits value hfits, hused]
  exact ⟨_, _, rfl, hkept.trans (CacheEntry.total_reverse _).symm, hrun⟩

theorem Sound.put (h : c.Sound) (id : ContractId) (value : α) (size : Nat) :
    (c.put id value size).Sound := by
  by_cases hfits : id.size + size ≤ c.budget
  · obtain ⟨kept, used, hput, hused, hrun⟩ := h.put_eq value hfits
    have hroom := hrun.fits
    rw [hput]
    refine ⟨?_, ?_, ?_⟩
    · show used + (id.size + size) = CacheEntry.total (_ :: kept)
      rw [CacheEntry.total_cons, hused]
      exact Nat.add_comm _ _
    · show used + (id.size + size) ≤ c.budget
      omega
    · show ((⟨id, value, size⟩ :: kept : List (CacheEntry α)).map (·.id)).Nodup
      rw [List.map_cons, List.nodup_cons]
      refine ⟨fun hmem => ?_, ?_⟩
      · obtain ⟨e, he, hid⟩ := List.mem_map.mp hmem
        have hothers := hrun.run.subset he
        simp only [others, List.mem_filter, Bool.not_eq_true', decide_eq_false_iff_not] at hothers
        exact hothers.2 hid
      · exact h.nodup.sublist ((hrun.run.sublist.trans (h.parts id).sublist).map _)
  · rwa [c.put_of_exceeds value (Nat.not_le.mp hfits)]

theorem Sound.use (h : c.Sound) (u : CacheUse α) : (c.use u).2.Sound := by
  cases u with
  | put id value size => exact h.put id value size
  | get id => exact h.get id
  | contains id => exact h
  | remove id => exact h.remove id

theorem Sound.useAll (h : c.Sound) (uses : List (CacheUse α)) : (c.useAll uses).Sound := by
  induction uses generalizing c with
  | nil => exact h
  | cons u uses ih => exact ih (h.use u)

theorem sound_empty (budget : Nat) : ({ budget } : BoundedCache α).Sound :=
  ⟨rfl, Nat.zero_le budget, .nil⟩

theorem Sound.use_follows (h : c.Sound) (u : CacheUse α) :
    LeastRecentlyUsed c.budget c.entries u (c.use u).1 (c.use u).2.entries := by
  cases u with
  | put id value size =>
    by_cases hfits : id.size + size ≤ c.budget
    · obtain ⟨kept, used, hput, -, hrun⟩ := h.put_eq value hfits
      show LeastRecentlyUsed _ _ _ _ (c.put id value size).entries
      rw [hput]
      exact .put hfits (h.parts id) hrun
    · show LeastRecentlyUsed _ _ _ _ (c.put id value size).entries
      rw [c.put_of_exceeds value (Nat.not_le.mp hfits)]
      exact .exceeds (Nat.not_le.mp hfits) (h.parts id) (h.parts id)
  | get id =>
    show LeastRecentlyUsed _ _ (.get id) (c.get id).1 (c.get id).2.entries
    rw [c.get_eq]
    exact .get (h.parts id)
  | contains id => exact .contains (h.parts id)
  | remove id =>
    show LeastRecentlyUsed _ _ (.remove id) (c.remove id).1 (c.remove id).2.entries
    rw [c.remove_eq]
    exact .remove (h.parts id)

/-- After any uses, the account of a cache is what its entries cost together, and within the budget;
no name has two entries; and the next use, whichever it is, goes by the order of last uses. -/
theorem follows_last_uses (budget : Nat) (uses : List (CacheUse α)) :
    let c := ({ budget } : BoundedCache α).useAll uses
    c.used = (c.entries.map fun e => e.id.size + e.size).sum ∧ c.used ≤ budget ∧
      (c.entries.map (·.id)).Nodup ∧
      ∀ u, LeastRecentlyUsed budget c.entries u (c.use u).1 (c.use u).2.entries := by
  intro c
  have hsound : c.Sound := (sound_empty budget).useAll uses
  have hbudget : c.budget = budget := useAll_budget _ uses
  refine ⟨hsound.used, hbudget ▸ hsound.within, hsound.nodup, fun u => ?_⟩
  rw [← hbudget]
  exact hsound.use_follows u

end BoundedCache

end MeteredContracts
