import Mathlib.Algebra.BigOperators.Finprod
import MeteredContracts.Table

namespace MeteredContracts

namespace Table

variable {κ α : Type} [DecidableEq κ]

theorem without_of_notMem {l : List (κ × α)} {k : κ} (h : ∀ e ∈ l, e.1 ≠ k) : without l k = l :=
  List.filter_eq_self.mpr fun e he => by simpa using h e he

theorem entries_insert (t : Table κ α) {k : κ} (h : ∀ e ∈ t.entries, e.1 ≠ k) (a : α) :
    (t.insert k a).entries = (k, a) :: t.entries := by
  simp only [insert, without_of_notMem h]

theorem erase_insert (t : Table κ α) {k : κ} (h : ∀ e ∈ t.entries, e.1 ≠ k) (a : α) :
    (t.insert k a).erase k = t := by
  obtain ⟨entries, nodup⟩ := t
  simp only [erase, insert, mk.injEq]
  rw [without_of_notMem h, without, List.filter_cons_of_neg (by simp)]
  exact without_of_notMem h

theorem find_of_mem {l : List (κ × α)} (hl : (l.map Prod.fst).Nodup) {k : κ} {a : α}
    (h : (k, a) ∈ l) : find k l = some a := by
  induction l with
  | nil => cases h
  | cons e l ih =>
    obtain ⟨j, b⟩ := e
    rw [List.map_cons, List.nodup_cons] at hl
    unfold find
    obtain he | h := List.mem_cons.mp h
    · cases he
      exact if_pos rfl
    · rw [if_neg fun hk => hl.1 (List.mem_map.mpr ⟨(k, a), h, hk⟩)]
      exact ih hl.2 h

theorem get?_of_mem (t : Table κ α) {k : κ} {a : α} (h : (k, a) ∈ t.entries) :
    t.get? k = some a := find_of_mem t.nodup h

theorem erase_of_contains_eq_false {t : Table κ α} {k : κ} (h : t.contains k = false) :
    t.erase k = t := by
  obtain ⟨entries, nodup⟩ := t
  simp only [erase, mk.injEq]
  refine without_of_notMem fun e he hk => ?_
  have hfound : (mk entries nodup).get? k = some e.2 := get?_of_mem _ (hk ▸ he)
  rw [contains, hfound] at h
  cases h

theorem mem_of_find {l : List (κ × α)} {k : κ} {a : α} (h : find k l = some a) : (k, a) ∈ l := by
  induction l with
  | nil => cases h
  | cons e l ih =>
    obtain ⟨j, b⟩ := e
    unfold find at h
    split at h
    next hk =>
      cases h
      rw [hk]
      exact List.mem_cons_self
    next => exact List.mem_cons_of_mem _ (ih h)

theorem mem_of_get? (t : Table κ α) {k : κ} {a : α} (h : t.get? k = some a) :
    (k, a) ∈ t.entries := mem_of_find h

theorem mem_insert {t : Table κ α} {k : κ} {a : α} {e : κ × α} (h : e ∈ (t.insert k a).entries) :
    e = (k, a) ∨ e ∈ t.entries :=
  (List.mem_cons.mp h).imp_right List.mem_of_mem_filter

theorem mem_erase {t : Table κ α} {k : κ} {e : κ × α} (h : e ∈ (t.erase k).entries) :
    e ∈ t.entries := List.mem_of_mem_filter h

def sum (f : α → Nat) (t : Table κ α) : Nat := (t.entries.map fun e => f e.2).sum

def count (f : α → Nat) (t : Table κ α) (k : κ) : Nat := ((t.get? k).map f).getD 0

variable (f : α → Nat) (t : Table κ α)

theorem sum_without {l : List (κ × α)} (hl : (l.map Prod.fst).Nodup) (k : κ) :
    ((without l k).map fun e => f e.2).sum + ((find k l).map f).getD 0 =
      (l.map fun e => f e.2).sum := by
  induction l with
  | nil => rfl
  | cons e l ih =>
    obtain ⟨j, a⟩ := e
    rw [List.map_cons, List.nodup_cons] at hl
    by_cases hk : k = j
    · subst hk
      have hw : without ((k, a) :: l) k = l := by
        rw [without, List.filter_cons_of_neg (by simp)]
        exact without_of_notMem fun e he hk => hl.1 (List.mem_map.mpr ⟨e, he, hk⟩)
      simp only [hw, find, if_true, Option.map_some, Option.getD_some, List.map_cons,
        List.sum_cons]
      omega
    · have hw : without ((j, a) :: l) k = (j, a) :: without l k := by
        rw [without, List.filter_cons_of_pos (by simp [Ne.symm hk])]
        rfl
      have hsum := ih hl.2
      simp only [hw, find, hk, if_false, List.map_cons, List.sum_cons]
      omega

theorem sum_insert (k : κ) (a : α) : (t.insert k a).sum f + t.count f k = t.sum f + f a := by
  have hsum := sum_without f t.nodup k
  simp only [sum, count, insert, get?, List.map_cons, List.sum_cons]
  omega

theorem sum_eq_finsum : t.sum f = ∑ᶠ k, t.count f k := by
  have hsupport :
      Function.support (t.count f) ⊆ ((t.entries.map Prod.fst).toFinset : Finset κ) := by
    intro k hk
    cases h : t.get? k with
    | none => exact absurd (by simp [count, h]) hk
    | some a => simpa using ⟨a, t.mem_of_get? h⟩
  rw [finsum_eq_sum_of_support_subset _ hsupport, List.sum_toFinset _ t.nodup, List.map_map, sum]
  congr 1
  refine List.map_congr_left fun e he => ?_
  simp only [Function.comp_apply, count, t.get?_of_mem he, Option.map_some, Option.getD_some]

end Table

end MeteredContracts
