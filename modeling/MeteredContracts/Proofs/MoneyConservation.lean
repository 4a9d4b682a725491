import MeteredContracts.Proofs.Requests
import MeteredContracts.Proofs.Transfers

namespace MeteredContracts

namespace Ledger

theorem supply_serve (l : Ledger) (r : Request) : (l.serve r).2.supply = l.supply := by
  cases r with
  | transferBalance sender receiver amount => exact l.supply_transfer sender receiver amount
  | newAccount id data =>
    show (l.newAccount id data).2.supply = l.supply
    unfold newAccount
    split <;> rfl
  | getBalance | getState | putState | deleteState | getAccountContract | getContractBytes
  | setAccountContract | setContractBytes => rfl

theorem supply_serveAll (l : Ledger) (rs : List Request) : (l.serveAll rs).supply = l.supply := by
  induction rs generalizing l with
  | nil => rfl
  | cons r rs ih => exact (ih (l.serve r).2).trans (l.supply_serve r)

end Ledger

theorem Frame.run_supply (p : Platform) (fr : Frame) :
    (p.run fr).2.service.ledger.supply = fr.world.service.ledger.supply := by
  obtain ⟨rs, -, h⟩ := fr.run_servesFor (p := p) (A := fun _ => True) (fun _ _ => trivial)
    fun _ _ => trivial
  rw [← h, Ledger.supply_serveAll]

/-- All balances together stay what they are, whatever is asked of a ledger and whatever calls are
made. A transfer between two accounts moves the amount or, where it is refused, nothing. -/
theorem Platform.money_conserved (p : Platform) :
    (∀ l : Ledger, l.supply = ∑ᶠ a, (l.balance a).toNat) ∧
    (∀ (l : Ledger) (rs : List Request), (l.serveAll rs).supply = l.supply) ∧
    (∀ cancel call w,
      (p.execute cancel call w).2.service.ledger.supply = w.service.ledger.supply) ∧
    (∀ (l : Ledger) sender receiver amount, sender ≠ receiver →
      (l.transfer sender receiver amount).1 = .ok () →
      ((l.transfer sender receiver amount).2.balance sender).toNat + amount.toNat =
          (l.balance sender).toNat ∧
        ((l.transfer sender receiver amount).2.balance receiver).toNat =
          (l.balance receiver).toNat + amount.toNat ∧
        ∀ a, a ≠ sender → a ≠ receiver →
          (l.transfer sender receiver amount).2.balance a = l.balance a) ∧
    ∀ (l : Ledger) sender receiver amount e, (l.transfer sender receiver amount).1 = .error e →
      ∀ a, (l.transfer sender receiver amount).2.balance a = l.balance a :=
  ⟨Ledger.supply_eq_finsum, Ledger.supply_serveAll,
    fun cancel call w => Frame.run_supply p (p.root cancel call w),
    fun _ _ _ _ hself h => Ledger.balance_transfer_ok hself h,
    fun _ _ _ _ _ h => Ledger.balance_transfer_error h⟩

set_option maxRecDepth 4000 in
theorem Platform.money_conserved_where_it_moves :
    let p : Platform := ⟨{}, none, {}⟩
    let w := World.patronage
    let l := w.service.ledger
    let l' := (p.execute none { fuel := 100 } w).2.service.ledger
    let full := l.setBalance .second 18446744073709551615
    (l.balance .second = 0 ∧ l'.balance .second = 5 ∧ l'.supply = l.supply) ∧
    ((l.transfer .zero .second 2).1 = .ok () ∧
      ((l.transfer .zero .second 2).2.balance .zero).toNat + 2 = 5) ∧
    (full.transfer .zero .second 1).1.isOk = false ∧
      (full.transfer .zero .second 1).2.balance .zero = 5 := by
  intro p w l l' full
  obtain ⟨-, -, hcalls, hpaid, hrefused⟩ := money_conserved p
  have hok : (l.transfer .zero .second 2).1 = .ok () := by decide +kernel
  have hfull : (full.transfer .zero .second 1).1.isOk = false := by decide +kernel
  refine ⟨⟨by decide +kernel, by decide +kernel, hcalls _ _ _⟩, ⟨hok, ?_⟩, hfull, ?_⟩
  · exact (hpaid _ _ _ _ (by decide) hok).1
  · cases he : (full.transfer .zero .second 1).1 with
    | ok _ =>
      rw [he] at hfull
      cases hfull
    | error e => exact hrefused _ _ _ _ _ he _

end MeteredContracts
