import MeteredContracts.Proofs.CallStack
import MeteredContracts.Proofs.Requests
import MeteredContracts.Proofs.SideBySide

namespace MeteredContracts

structure Ledger.Confines (A : Address → Prop) (l l' : Ledger) : Prop where
  stored : ∀ a, ¬A a → ∀ key, l'.stored a key = l.stored a key
  balance : ∀ a, ¬A a → l.balance a ≤ l'.balance a
  code : l'.code = l.code

namespace Ledger

variable {A : Address → Prop} {l l' l'' : Ledger}

theorem Confines.refl (l : Ledger) : Confines A l l :=
  ⟨fun _ _ _ => rfl, fun _ _ => UInt64.le_refl _, rfl⟩

theorem Confines.trans (h : Confines A l l') (h' : Confines A l' l'') : Confines A l l'' where
  stored a ha key := (h'.stored a ha key).trans (h.stored a ha key)
  balance a ha := UInt64.le_trans (h.balance a ha) (h'.balance a ha)
  code := h'.code.trans h.code

theorem stored_put (l : Ledger) {a b : Address} (h : b ≠ a) (key value key' : Bytes) :
    (l.put a key value).stored b key' = l.stored b key' := by
  simp only [stored, put, Table.get?_insert, Prod.mk.injEq, h, false_and, if_false]

theorem stored_delete (l : Ledger) {a b : Address} (h : b ≠ a) (key key' : Bytes) :
    (l.delete a key).2.stored b key' = l.stored b key' := by
  simp only [stored, delete, Table.get?_erase, Prod.mk.injEq, h, false_and, if_false]

theorem confines_serve {a : Address} {r : Request} (ha : A a) (hr : r.MadeBy a) (l : Ledger) :
    Confines A l (l.serve r).2 := by
  have hcode := l.serve_code hr
  cases r with
  | getBalance | getState => exact .refl l
  | transferBalance sender receiver amount =>
    obtain rfl : sender = a := hr
    refine ⟨fun b _ key => ?_, fun b hb => ?_, hcode⟩
    · obtain ⟨balances, h⟩ := l.transfer_balances sender receiver amount
      show (l.transfer sender receiver amount).2.stored b key = _
      rw [h]
      rfl
    · exact l.balance_le_transfer receiver amount fun he => hb (he ▸ ha)
  | putState account key value =>
    obtain rfl : account = a := hr
    refine ⟨fun b hb key' => ?_, fun _ _ => UInt64.le_refl _, hcode⟩
    have hne : b ≠ account := fun he => hb (he ▸ ha)
    exact l.stored_put hne key value key'
  | deleteState account key =>
    obtain rfl : account = a := hr
    refine ⟨fun b hb key' => ?_, fun _ _ => UInt64.le_refl _, hcode⟩
    have hne : b ≠ account := fun he => hb (he ▸ ha)
    exact l.stored_delete hne key key'
  | newAccount id data =>
    show Confines A l (l.newAccount id data).2
    unfold newAccount
    split
    · exact ⟨fun _ _ _ => rfl, fun _ _ => UInt64.le_refl _, rfl⟩
    · exact .refl l
  | getAccountContract | getContractBytes | setAccountContract | setContractBytes => cases hr

theorem ServesFor.confines (h : ServesFor A l l') : Confines A l l' := by
  obtain ⟨rs, hrs, rfl⟩ := h
  induction rs generalizing l with
  | nil => exact .refl l
  | cons r rs ih =>
    obtain ⟨a, ha, hr⟩ := hrs r List.mem_cons_self
    exact (confines_serve ha hr l).trans (ih fun r' h => hrs r' (List.mem_cons_of_mem r h))

end Ledger

namespace Frame

variable {p : Platform} {root : Frame}

theorem executes_of_links {links : List HostFunction} {a : Address}
    (h : root.links? p = some links) (hc : .callContract ∉ links) (ha : root.Executes p a) :
    root.call.contract = a := by
  obtain ⟨fr, -, ht, -, hcall⟩ := ha
  obtain rfl | ⟨fr', ⟨host, hm⟩, -⟩ := ht.cases_head
  · exact hcall
  · cases hm with
    | intro _ hh hf =>
      obtain ⟨ss, hs, hh⟩ := hh
      have hlinks := Option.some.inj (h.symm.trans (Frame.session_links hs))
      rw [hlinks, Array.mem_toList_iff] at hc
      exact absurd (hf ▸ hh.caller.2.2) hc

end Frame

/-- Whatever becomes of a call, accounts that it does not execute keep their storage and lose no
money, and all bytecode stays what it is. -/
theorem Platform.Reachable.confined {p : Platform} {w : World} (hw : p.Reachable w)
    (cancel : Cancellation) (call : Call) :
    let before := w.service.ledger
    let after := (p.execute cancel call w).2.service.ledger
    (∀ a, ¬(p.root cancel call w).Executes p a →
      (∀ key, after.stored a key = before.stored a key) ∧ before.balance a ≤ after.balance a) ∧
    ∀ id, after.contractBytes id = before.contractBytes id := by
  intro before after
  have hempty : (p.root cancel call w).world.ActsFor ((p.root cancel call w).Executes p) := by
    intro e he
    rw [show (p.root cancel call w).world.registry = .empty from hw.registry] at he
    cases he
  have hserved : before.ServesFor ((p.root cancel call w).Executes p) after :=
    Frame.run_servesFor hempty fun _ h => h
  have hc := hserved.confines
  refine ⟨fun a ha => ⟨hc.stored a ha, hc.balance a ha⟩, fun id => ?_⟩
  unfold Ledger.contractBytes
  rw [hc.code]

/-- A module that stores something and gives the second account some money. -/
def Wasm.Module.steward : Wasm.Module where
  imports := [⟨"state", "put", .function HostFunction.putState.type⟩,
    ⟨"balance", "send", .function HostFunction.sendBalance.type⟩]
  functions := #[⟨⟨[.i32], [.i32]⟩, [], [.const .i32 0, .const .i32 0, .const .i32 0, .const .i32 0,
    .call 0, .const .i32 0, .const .i64 3, .call 1, .drop, .const .i32 0]⟩, ⟨⟨[.i32], []⟩, [], []⟩]
  memory := some ⟨1, none⟩
  exports := [⟨"memory", .memory, 0⟩, ⟨"alloc", .function, 2⟩, ⟨"", .function, 3⟩]
  data := [⟨.const .i32 0, [1]⟩]

def World.stewardship : World :=
  { World.hosting .steward with
    service.ledger.balances := (Table.empty.insert .zero 5).insert .second 2
    service.ledger.storage := Table.empty.insert (.second, []) [8] }

set_option maxRecDepth 4000 in
theorem Platform.Reachable.confined_to_a_steward :
    let p : Platform := ⟨{}, none, {}⟩
    let w := World.stewardship
    let root := p.root none { fuel := 100 } w
    let before := w.service.ledger
    let after := (p.execute none { fuel := 100 } w).2.service.ledger
    p.Reachable w ∧ ¬root.Executes p .second ∧
    (after.stored .second [] = some [8] ∧ before.balance .second ≤ after.balance .second) ∧
    after.stored .zero [] = some [] ∧ after.balance .zero = 2 := by
  intro p w root before after
  have hreachable : p.Reachable w := .start rfl
  have hlinks : root.links? p = some [.putState, .sendBalance] := by decide +kernel
  have hexecutes : ¬root.Executes p .second := by
    intro h
    exact absurd (Frame.executes_of_links hlinks (by decide) h) (by decide)
  obtain ⟨hstored, hbalance⟩ := (hreachable.confined none { fuel := 100 }).1 .second hexecutes
  exact ⟨hreachable, hexecutes, ⟨hstored [], hbalance⟩, by decide +kernel⟩

end MeteredContracts
