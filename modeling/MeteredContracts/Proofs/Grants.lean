import MeteredContracts.Proofs.Metering

namespace MeteredContracts

theorem saturate_le (n : Nat) : saturate n ≤ maxFuel := Nat.min_le_right n maxFuel

theorem saturate_of_le {n : Nat} (h : n ≤ maxFuel) : saturate n = n := Nat.min_eq_left h

theorem saturate_saturate_add (a b : Nat) : saturate (saturate a + b) = saturate (a + b) := by
  unfold saturate
  omega

theorem saturate_add_saturate (a b : Nat) : saturate (a + saturate b) = saturate (a + b) := by
  rw [Nat.add_comm, saturate_saturate_add, Nat.add_comm]

theorem saturate_add_le_iff (n amount : Nat) :
    saturate n + amount ≤ maxFuel ↔ amount = 0 ∨ n + amount ≤ maxFuel := by
  unfold saturate
  omega

namespace Meter

structure Fits (m : Meter) : Prop where
  remaining : m.remaining ≤ maxFuel
  granted : m.granted ≤ maxFuel

structure Grants (before after : Meter) (amount : Nat) : Prop where
  initial : after.initial = before.initial
  granted : after.granted = saturate (before.granted + amount)
  fits : after.Fits

theorem Grants.trans {a b c : Meter} {n n' : Nat} (h : a.Grants b n) (h' : b.Grants c n') :
    a.Grants c (n + n') where
  initial := h'.initial.trans h.initial
  granted := by rw [h'.granted, h.granted, saturate_saturate_add, Nat.add_assoc]
  fits := h'.fits

theorem fits_new (budget : UInt64) : (new budget).Fits where
  remaining := by
    rw [remaining_new]
    exact Nat.le_pred_of_lt budget.toNat_lt
  granted := Nat.zero_le _

theorem Fits.grants_of_eq {m m' : Meter} (hm : m.Fits) (hi : m'.initial = m.initial)
    (hg : m'.granted = m.granted) (hr : m'.remaining ≤ maxFuel) : m.Grants m' 0 where
  initial := hi
  granted := hg.trans (saturate_of_le hm.granted).symm
  fits := ⟨hr, hg ▸ hm.granted⟩

theorem Fits.grants_apply {m : Meter} (hm : m.Fits) (op : Operation) :
    m.Grants (m.apply op) op.granted := by
  have hpool := hm.remaining
  cases op with
  | add amount =>
    refine ⟨rfl, rfl, ?_, saturate_le _⟩
    show (m.add amount).remaining ≤ maxFuel
    rw [remaining_add]
    exact saturate_le _
  | refund amount =>
    refine hm.grants_of_eq rfl rfl ?_
    show (m.refund amount).remaining ≤ maxFuel
    rw [remaining_refund]
    exact saturate_le _
  | consume amount =>
    obtain hlt | hle := Nat.lt_or_ge m.remaining amount
    · rw [apply_consume_of_lt hlt]
      exact hm.grants_of_eq rfl rfl hpool
    · rw [apply_consume_of_le hle]
      refine hm.grants_of_eq rfl rfl ?_
      show ((m.remaining : Int) - amount).toNat ≤ maxFuel
      omega
  | charge cost => exact hm.grants_of_eq rfl rfl hpool
  | settle =>
    refine hm.grants_of_eq rfl rfl ?_
    show m.settle.remaining ≤ maxFuel
    rw [remaining_settle]
    omega
  | forgive => exact hm.grants_of_eq rfl rfl hpool

theorem Fits.grants_after {m : Meter} (hm : m.Fits) (ops : List Operation) :
    m.Grants (m.after ops) (ops.map Operation.granted).sum := by
  -- to saturate at every grant is to saturate the sum of all grants
  induction ops generalizing m with
  | nil => exact hm.grants_of_eq rfl rfl hm.remaining
  | cons op ops ih =>
    have hfirst := hm.grants_apply op
    exact hfirst.trans (ih hfirst.fits)

def unbooked (m : Meter) (amount : Nat) : Nat := saturate (m.initial + m.granted) + amount - maxFuel

theorem Fits.consumed_add {m : Meter} (hm : m.Fits) (amount : Nat) :
    (m.add amount).consumed = m.consumed - m.unbooked amount := by
  have hpool := hm.remaining
  have hbooks : saturate (m.initial + saturate (m.granted + amount)) =
      saturate (saturate (m.initial + m.granted) + amount) := by
    rw [saturate_add_saturate, saturate_saturate_add, Nat.add_assoc]
  show saturate (m.initial + saturate (m.granted + amount)) - (m.add amount).remaining = _
  rw [hbooks, remaining_add, consumed, unbooked]
  unfold saturate
  omega

/-- A grant is never booked as consumption. It leaves consumption as it is exactly if it grants
nothing, or nothing has been consumed, or budget and grants fit in a machine word together with it;
and else what the books cannot hold of it is taken off consumption. -/
theorem grant_spares_consumption_iff (budget : UInt64) (ops : List Operation) (amount : Nat) :
    let m := (new budget).after ops
    let granted := (ops.map Operation.granted).sum
    (m.add amount).consumed =
        m.consumed - (saturate (budget.toNat + granted) + amount - maxFuel) ∧
      ((m.add amount).consumed = m.consumed ↔
        amount = 0 ∨ m.consumed = 0 ∨ budget.toNat + granted + amount ≤ maxFuel) := by
  intro m granted
  obtain ⟨hinitial, hgranted, hfits⟩ : (new budget).Grants m granted :=
    (fits_new budget).grants_after ops
  clear_value m granted
  have hbooks : saturate (m.initial + m.granted) = saturate (budget.toNat + granted) := by
    rw [hinitial, hgranted, saturate_add_saturate]
    show saturate (budget.toNat + (0 + granted)) = _
    rw [Nat.zero_add]
  have hconsumed := hfits.consumed_add amount
  rw [unbooked, hbooks] at hconsumed
  have hheld := saturate_add_le_iff (budget.toNat + granted) amount
  exact ⟨hconsumed, by omega⟩

theorem grant_takes_consumption_back :
    let m := (new (.ofNat maxFuel)).after [.consume 10]
    m.consumed = 10 ∧ (m.add 5).consumed = 5 ∧
      ¬∀ (budget amount : UInt64) (ops : List Operation),
        (((new budget).after ops).add amount.toNat).consumed =
          ((new budget).after ops).consumed := by
  intro m
  have hbefore : m.consumed = 10 := by decide
  have hafter : (m.add 5).consumed = 5 := by decide
  refine ⟨hbefore, hafter, fun h => ?_⟩
  have hsame : (m.add 5).consumed = m.consumed := h (.ofNat maxFuel) 5 [.consume 10]
  rw [hbefore, hafter] at hsame
  cases hsame

end Meter

end MeteredContracts
