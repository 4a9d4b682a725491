import MeteredContracts.Ledger.Request
import MeteredContracts.Proofs.Tables

namespace MeteredContracts

namespace Ledger

variable (l : Ledger) (sender receiver : Address) (amount : UInt64)

def supply : Nat := l.balances.sum UInt64.toNat

theorem count_balances (a : Address) :
    l.balances.count UInt64.toNat a = (l.balance a).toNat := by
  unfold Table.count balance
  cases l.balances.get? a <;> rfl

theorem supply_eq_finsum : l.supply = ∑ᶠ a, (l.balance a).toNat := by
  rw [supply, Table.sum_eq_finsum]
  exact finsum_congr l.count_balances

theorem balance_setBalance (a b : Address) (n : UInt64) :
    (l.setBalance a n).balance b = if b = a then n else l.balance b := by
  simp only [balance, setBalance, Table.get?_insert]
  split <;> rfl

theorem supply_setBalance (a : Address) (n : UInt64) :
    (l.setBalance a n).supply + (l.balance a).toNat = l.supply + n.toNat := by
  rw [← count_balances]
  exact l.balances.sum_insert UInt64.toNat a n

@[simp] theorem balance_setBalance_self (a b : Address) :
    (l.setBalance a (l.balance a)).balance b = l.balance b := by
  rw [balance_setBalance]
  split
  next h => rw [h]
  next => rfl

def debited : Ledger := l.setBalance sender (l.balance sender - amount)

theorem balance_debited {a : Address} (h : a ≠ sender) :
    (l.debited sender amount).balance a = l.balance a := by
  rw [debited, balance_setBalance, if_neg h]

inductive Course : Except LedgerError Unit × Ledger → Prop
  | toSelf : sender = receiver → Course (.ok (), l)
  | unfunded : sender ≠ receiver → l.balance sender < amount →
      Course (.error (.insufficientBalance (l.balance sender) amount),
        l.setBalance sender (l.balance sender))
  | overflowing : sender ≠ receiver → amount ≤ l.balance sender →
      UInt64.size ≤ (l.balance receiver).toNat + amount.toNat →
      Course (.error (.backend s!"balance overflow for {receiver}"),
        ((l.debited sender amount).setBalance receiver (l.balance receiver)).setBalance sender
          (l.balance sender))
  | paid : sender ≠ receiver → amount ≤ l.balance sender →
      (l.balance receiver).toNat + amount.toNat < UInt64.size →
      Course (.ok (),
        (l.debited sender amount).setBalance receiver (l.balance receiver + amount))

variable {l sender receiver amount}

theorem restored_eq (h : amount ≤ l.balance sender) :
    UInt64.ofNat (min ((l.balance sender - amount).toNat + amount.toNat) (UInt64.size - 1)) =
      l.balance sender := by
  have hlt := (l.balance sender).toNat_lt
  have hle := UInt64.le_iff_toNat_le.mp h
  rw [UInt64.toNat_sub_of_le _ _ h, Nat.sub_add_cancel hle,
    Nat.min_eq_left (by simp only [UInt64.size]; omega), UInt64.ofNat_toNat]

variable (l sender receiver amount)

theorem transfer_course : l.Course sender receiver amount (l.transfer sender receiver amount) := by
  unfold transfer
  by_cases hself : sender = receiver
  · rw [if_pos hself]
    exact .toSelf hself
  rw [if_neg hself]
  dsimp only
  by_cases hfunds : l.balance sender < amount
  · rw [if_pos hfunds]
    exact .unfunded hself hfunds
  have hle := UInt64.not_lt.mp hfunds
  have hheld := l.balance_debited sender amount (Ne.symm hself)
  have hleft : ((l.debited sender amount).setBalance receiver (l.balance receiver)).balance sender =
      l.balance sender - amount := by
    rw [balance_setBalance, if_neg hself, debited, balance_setBalance, if_pos rfl]
  rw [if_neg hfunds, ← debited, hheld, hleft, restored_eq hle]
  by_cases hroom : UInt64.size ≤ (l.balance receiver).toNat + amount.toNat
  · rw [if_pos hroom]
    exact .overflowing hself hle hroom
  · rw [if_neg hroom]
    exact .paid hself hle (Nat.not_le.mp hroom)

theorem supply_debited (h : amount ≤ l.balance sender) :
    (l.debited sender amount).supply + amount.toNat = l.supply := by
  have hsum := l.supply_setBalance sender (l.balance sender - amount)
  have hle := UInt64.le_iff_toNat_le.mp h
  rw [UInt64.toNat_sub_of_le _ _ h] at hsum
  rw [debited]
  omega

theorem supply_transfer : (l.transfer sender receiver amount).2.supply = l.supply := by
  have hc := l.transfer_course sender receiver amount
  generalize l.transfer sender receiver amount = r at hc ⊢
  cases hc with
  | toSelf => rfl
  | unfunded =>
    have hsum := l.supply_setBalance sender (l.balance sender)
    show (l.setBalance sender (l.balance sender)).supply = _
    omega
  | overflowing hself hle _ =>
    -- three writes: the debit, an entry for the receiver, and the debit put back
    have hdebit := l.supply_debited sender amount hle
    have hlook := (l.debited sender amount).supply_setBalance receiver (l.balance receiver)
    have hback := ((l.debited sender amount).setBalance receiver
      (l.balance receiver)).supply_setBalance sender (l.balance sender)
    rw [balance_debited _ _ _ (Ne.symm hself)] at hlook
    rw [balance_setBalance, if_neg hself, debited, balance_setBalance, if_pos rfl,
      UInt64.toNat_sub_of_le _ _ hle, ← debited] at hback
    have hfunds := UInt64.le_iff_toNat_le.mp hle
    dsimp only
    omega
  | paid hself hle hroom =>
    have hdebit := l.supply_debited sender amount hle
    have hcredit := (l.debited sender amount).supply_setBalance receiver
      (l.balance receiver + amount)
    rw [balance_debited _ _ _ (Ne.symm hself), UInt64.toNat_add, Nat.mod_eq_of_lt hroom] at hcredit
    dsimp only
    omega

variable {l sender receiver amount}

theorem balance_transfer_ok (hself : sender ≠ receiver)
    (h : (l.transfer sender receiver amount).1 = .ok ()) :
    ((l.transfer sender receiver amount).2.balance sender).toNat + amount.toNat =
        (l.balance sender).toNat ∧
      ((l.transfer sender receiver amount).2.balance receiver).toNat =
        (l.balance receiver).toNat + amount.toNat ∧
      ∀ a, a ≠ sender → a ≠ receiver →
        (l.transfer sender receiver amount).2.balance a = l.balance a := by
  have hc := l.transfer_course sender receiver amount
  generalize l.transfer sender receiver amount = r at hc h ⊢
  cases hc with
  | toSelf he => exact absurd he hself
  | unfunded => cases h
  | overflowing => cases h
  | paid _ hle hroom =>
    have hfunds := UInt64.le_iff_toNat_le.mp hle
    simp only [balance_setBalance, if_neg hself, if_true]
    refine ⟨?_, ?_, fun a hs hr => ?_⟩
    · rw [debited, balance_setBalance, if_pos rfl, UInt64.toNat_sub_of_le _ _ hle]
      omega
    · rw [UInt64.toNat_add, Nat.mod_eq_of_lt hroom]
    · rw [if_neg hr, balance_debited _ _ _ hs]

theorem balance_transfer_error {e : LedgerError}
    (h : (l.transfer sender receiver amount).1 = .error e) (a : Address) :
    (l.transfer sender receiver amount).2.balance a = l.balance a := by
  have hc := l.transfer_course sender receiver amount
  generalize l.transfer sender receiver amount = r at hc h ⊢
  cases hc with
  | toSelf => cases h
  | paid => cases h
  | unfunded => exact l.balance_setBalance_self sender a
  | overflowing hself =>
    simp only [balance_setBalance]
    by_cases hs : a = sender
    · rw [if_pos hs, hs]
    · rw [if_neg hs, balance_debited _ _ _ hs]
      split
      next hr => rw [hr]
      next => rfl

theorem balance_transfer_idle {l' : Ledger} (h : l.transfer sender receiver amount = (.ok (), l'))
    (hidle : amount = 0 ∨ receiver = sender) (a : Address) : l'.balance a = l.balance a := by
  by_cases hself : sender = receiver
  · rw [transfer, if_pos hself] at h
    cases h
    rfl
  obtain rfl : amount = 0 := hidle.resolve_right (Ne.symm hself)
  obtain ⟨hs, hr, hothers⟩ := balance_transfer_ok hself (congrArg Prod.fst h)
  rw [h] at hs hr hothers
  by_cases ha : a = sender
  · rw [ha]
    exact UInt64.toNat_inj.mp hs
  · by_cases ha' : a = receiver
    · rw [ha']
      exact UInt64.toNat_inj.mp hr
    · exact hothers a ha ha'

theorem balance_le_transfer (l : Ledger) (receiver : Address) (amount : UInt64) {a : Address}
    (ha : a ≠ sender) : l.balance a ≤ (l.transfer sender receiver amount).2.balance a := by
  by_cases hself : sender = receiver
  · rw [transfer, if_pos hself]
    exact UInt64.le_refl _
  cases h : (l.transfer sender receiver amount).1 with
  | error e => rw [balance_transfer_error h]; exact UInt64.le_refl _
  | ok _ =>
    obtain ⟨-, hreceiver, hothers⟩ := balance_transfer_ok hself h
    by_cases hr : a = receiver
    · rw [hr, UInt64.le_iff_toNat_le]
      omega
    · rw [hothers a ha hr]
      exact UInt64.le_refl _

theorem transfer_balances (l : Ledger) (sender receiver : Address) (amount : UInt64) :
    ∃ balances, (l.transfer sender receiver amount).2 = { l with balances } := by
  have hc := l.transfer_course sender receiver amount
  generalize l.transfer sender receiver amount = r at hc ⊢
  cases hc <;> exact ⟨_, rfl⟩

end Ledger

end MeteredContracts
