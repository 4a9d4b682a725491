import MeteredContracts.Proofs.HostArguments
import MeteredContracts.Proofs.Refusals

namespace MeteredContracts

open Wasm (Cell)

structure Ledger.Affords (l : Ledger) (sender receiver : Address) (amount : UInt64) : Prop where
  funded : amount ≤ l.balance sender
  room : (l.balance receiver).toNat + amount.toNat < UInt64.size

def World.Transfers (w : World) (sender receiver : Address) (amount : UInt64) : Prop :=
  w.service.outages.get? .transferBalance = none ∧
    (sender = receiver ∨ w.service.ledger.Affords sender receiver amount)

section Transfers

variable {l : Ledger} {w : World} {sender receiver : Address} {amount : UInt64}

theorem Ledger.transfer_eq_ok_iff : (l.transfer sender receiver amount).1 = .ok () ↔
    sender = receiver ∨ l.Affords sender receiver amount := by
  have hc := l.transfer_course sender receiver amount
  generalize l.transfer sender receiver amount = r at hc ⊢
  cases hc with
  | toSelf hself => exact ⟨fun _ => .inl hself, fun _ => rfl⟩
  | unfunded hne hlt =>
    refine ⟨nofun, ?_⟩
    rintro (hself | ⟨hfunded, -⟩)
    · exact absurd hself hne
    · exact absurd hfunded (UInt64.not_le.mpr hlt)
  | overflowing hne _ hfull =>
    refine ⟨nofun, ?_⟩
    rintro (hself | ⟨-, hroom⟩)
    · exact absurd hself hne
    · exact absurd hfull (Nat.not_le.mpr hroom)
  | paid _ hle hroom => exact ⟨fun _ => .inr ⟨hle, hroom⟩, fun _ => rfl⟩

theorem Ledger.transfer_eq_insufficient_iff {available requested : UInt64} :
    (l.transfer sender receiver amount).1 = .error (.insufficientBalance available requested) ↔
      sender ≠ receiver ∧ l.balance sender < amount ∧
        available = l.balance sender ∧ requested = amount := by
  have hc := l.transfer_course sender receiver amount
  generalize l.transfer sender receiver amount = r at hc ⊢
  cases hc with
  | toSelf hself => exact ⟨nofun, fun h => absurd hself h.1⟩
  | unfunded hne hlt =>
    simp only [Except.error.injEq, LedgerError.insufficientBalance.injEq]
    exact ⟨fun h => ⟨hne, hlt, h.1.symm, h.2.symm⟩, fun h => ⟨h.2.2.1.symm, h.2.2.2.symm⟩⟩
  | overflowing _ hle => exact ⟨nofun, fun h => absurd h.2.1 (UInt64.not_lt.mpr hle)⟩
  | paid _ hle => exact ⟨nofun, fun h => absurd h.2.1 (UInt64.not_lt.mpr hle)⟩

theorem World.ask_transferBalance_eq_ok_iff :
    (w.ask (.transferBalance sender receiver amount)).1 = .ok () ↔
      w.Transfers sender receiver amount := by
  unfold Transfers
  cases ho : w.service.outages.get? .transferBalance with
  | some text =>
    rw [ask_of_outage (r := .transferBalance sender receiver amount) ho]
    exact ⟨nofun, nofun⟩
  | none =>
    rw [ask_of_available (r := .transferBalance sender receiver amount) ho]
    exact Ledger.transfer_eq_ok_iff.trans (and_iff_right rfl).symm

theorem World.Transfers.funded (h : w.Transfers sender receiver amount) :
    receiver = sender ∨ amount ≤ w.service.ledger.balance sender :=
  h.2.imp Eq.symm (·.funded)

theorem Commission.transfer_fst_iff {o : Commission} : (o.transfer w).1 = true ↔
    o.value = 0 ∨ w.Transfers o.sponsor.contract o.target (.ofNat o.value) := by
  rw [← World.ask_transferBalance_eq_ok_iff]
  unfold transfer
  by_cases hv : o.value = 0
  · simp only [hv, if_true, true_or]
  · simp only [hv, if_false, false_or]
    rcases w.ask (.transferBalance o.sponsor.contract o.target (.ofNat o.value)) with ⟨e | ⟨⟩, w'⟩
    · exact ⟨nofun, nofun⟩
    · exact ⟨fun _ => rfl, fun _ => rfl⟩

end Transfers

theorem Caller.readAddress_of_read (c : Caller) {s : Scene} {ptr : Int} {a : Address}
    (h : s.read c ptr 33 = .ok a.bytes) : c.readAddress ptr s = (.ok a, s) := by
  have hread : c.read ptr 33 s = (.ok a.bytes, s) := by
    show HostM.ofExcept (s.read c ptr 33) s = _
    rw [h]
    rfl
  have ha : Address.ofBytes? a.bytes = some a := dif_pos a.length_eq
  rw [readAddress, HostM.bind_apply, hread]
  simp only [ha]
  rfl

namespace HostCall

variable (h : HostCall)

def long (i : Nat) : Int := (h.args.getD i 0).int64

structure Pays (call : Call) (receiver : Address) : Prop where
  served : h.served? = some call
  receiver : h.scene.read h.caller (h.word 0) 33 = .ok receiver.bytes
  amount : 0 ≤ h.long 1

variable {h} {call : Call} {receiver : Address}

theorem run_sendBalance (hf : h.function = .sendBalance) : h.run =
    (h.caller.sendBalance (h.word 0) (h.long 1) >>= fun n => pure (.values [.ofInt32 n]))
      h.scene := by
  rw [run, hf]
  rfl

theorem Pays.returns_zero_iff (hf : h.function = .sendBalance) (hp : h.Pays call receiver) :
    h.Returns (.ofInt32 0) ↔
      h.scene.world.Transfers call.contract receiver (.ofNat (h.long 1).toNat) := by
  have hreceiver := h.caller.readAddress_of_read hp.receiver
  rw [← World.ask_transferBalance_eq_ok_iff, Returns, run_sendBalance hf, Caller.sendBalance]
  simp only [bind_assoc]
  rw [call_bind hp.served, HostM.bind_apply, hreceiver]
  simp only [Int.not_lt.mpr hp.amount, if_false]
  rw [bind_assoc, HostM.bind_apply, HostM.ask_apply]
  dsimp only
  rcases h.scene.world.ask (.transferBalance call.contract receiver (.ofNat (h.long 1).toNat)) with
    ⟨e | ⟨⟩, w⟩
  · refine ⟨fun hr => ?_, fun ht => ?_⟩
    · have hcell : Cell.ofInt32 1 = .ofInt32 0 :=
        List.head_eq_of_cons_eq (Reply.values.inj (Except.ok.inj hr))
      exact absurd hcell (by decide)
    · cases ht
  · exact ⟨fun _ => rfl, fun _ => rfl⟩

theorem pays_of_run {r : Reply} (hf : h.function = .sendBalance) (hr : h.run.1 = .ok r) :
    ∃ call receiver, h.Pays call receiver := by
  rw [run_sendBalance hf, Caller.sendBalance, bind_assoc] at hr
  obtain ⟨call, hcall, hr⟩ := h.caller.reads_call.bind_fst_eq_ok hr
  rw [bind_assoc] at hr
  obtain ⟨receiver, hreceiver, hr⟩ := (h.caller.reads_readAddress (h.word 0)).bind_fst_eq_ok hr
  refine ⟨call, receiver, ?_, HostM.look_fst_eq_ok (h.caller.readAddress_fst_eq_ok hreceiver), ?_⟩
  · exact served?_of_lookup (h.caller.call_fst_eq_ok hcall)
  · by_contra hneg
    rw [if_pos (Int.not_le.mp hneg)] at hr
    cases hr

theorem returns_zero_iff (hf : h.function = .sendBalance) : h.Returns (.ofInt32 0) ↔
    ∃ call receiver, h.Pays call receiver ∧
      h.scene.world.Transfers call.contract receiver (.ofNat (h.long 1).toNat) := by
  constructor
  · intro hr
    obtain ⟨call, receiver, hp⟩ := pays_of_run hf hr
    exact ⟨call, receiver, hp, (hp.returns_zero_iff hf).mp hr⟩
  · rintro ⟨call, receiver, hp, ht⟩
    exact (hp.returns_zero_iff hf).mpr ht

theorem Pays.long_le (hp : h.Pays call receiver) {balance : UInt64}
    (hle : .ofNat (h.long 1).toNat ≤ balance) : h.long 1 ≤ balance.toNat := by
  -- an amount of 64 bits with a sign is one without, where it is not negative
  have hlt : h.long 1 < 2 ^ 63 := Int64.toInt_lt _
  have hamount := hp.amount
  rw [UInt64.le_iff_toNat_le, UInt64.toNat_ofNat_of_lt' (by simp only [UInt64.size]; omega)] at hle
  omega

end HostCall

namespace Frame

variable {p : Platform} {root fr fr' : Frame} {h : HostCall}

theorem Serves.funded (hh : fr.Serves p h) (hw : fr.world.Tidy) (hf : h.function = .sendBalance)
    (hr : h.Returns (.ofInt32 0)) :
    h.scene.read h.caller (h.word 0) 33 = .ok fr.call.contract.bytes ∨
      h.long 1 ≤ (h.scene.world.service.ledger.balance fr.call.contract).toNat := by
  obtain ⟨call, receiver, hp, ht⟩ := (HostCall.returns_zero_iff hf).mp hr
  obtain rfl : call = _ :=
    Option.some.inj (hp.served.symm.trans (HostCall.served?_of_lookup (hh.lookup hw)))
  obtain rfl | hle := ht.funded
  · exact .inl hp.receiver
  · exact .inr (hp.long_le hle)

theorem Below.makes_iff {n : Nat} (hb : root.Below p n fr) (hw : root.world.Tidy)
    (hroot : root.levels = p.config.execution.maxCallDepth.toNat - root.call.depth.toNat)
    (hh : fr.Serves p h) : (∃ fr', fr.Makes p h fr') ↔ h.function = .callContract ∧
      ∃ o, h.commission = .ok o ∧ o.fuel ≤ h.scene.guest.meter.remaining ∧
        (o.value = 0 ∨ h.scene.world.Transfers fr.call.contract o.target (.ofNat o.value)) := by
  have hsponsor (o : Commission) (ho : h.commission = .ok o) :
      o.sponsor.contract = fr.call.contract := by
    rw [hh.sponsor_eq (tree_tidy hw hb.tree) ho]
  constructor
  · rintro ⟨fr', hm⟩
    cases hm with
    | @intro levels o w hl _ hf ho hfuel ht =>
      refine ⟨hf, o, ho, hfuel, ?_⟩
      rw [← hsponsor o ho, ← Commission.transfer_fst_iff, ht]
  · rintro ⟨hf, o, ho, hfuel, ht⟩
    rw [← hsponsor o ho, ← Commission.transfer_fst_iff] at ht
    obtain ⟨levels, hl⟩ := hb.levels_of_commission hw hroot hh ho
    exact ⟨_, .intro hl hh hf ho hfuel (Prod.ext ht rfl)⟩

theorem Makes.funded (hm : fr.Makes p h fr') (hw : fr.world.Tidy) :
    fr'.call.value = 0 ∨ fr'.call.contract = fr.call.contract ∨
      fr'.call.value ≤ h.scene.world.service.ledger.balance fr.call.contract := by
  obtain ⟨hv, -⟩ | hsent := hm.sent hw
  · exact .inl hv
  · exact .inr ((Ledger.transfer_eq_ok_iff.mp (congrArg Prod.fst hsent)).imp Eq.symm (·.funded))

end Frame

/-- A transfer is made exactly if it is one to oneself, or the sender has the amount and the
receiver has room for it. So a guest that is told that it has paid, or whose nested call is begun
with a value, has that much money or pays its own account. -/
theorem Platform.transfers_are_funded_unless_to_oneself (p : Platform) :
    (∀ (l : Ledger) sender receiver amount,
      ((l.transfer sender receiver amount).1 = .ok () ↔
        sender = receiver ∨ l.Affords sender receiver amount) ∧
      ∀ available requested,
        (l.transfer sender receiver amount).1 = .error (.insufficientBalance available requested) ↔
          sender ≠ receiver ∧ l.balance sender < amount ∧
            available = l.balance sender ∧ requested = amount) ∧
    (∀ h : HostCall, h.function = .sendBalance → (h.Returns (.ofInt32 0) ↔
      ∃ call receiver, h.Pays call receiver ∧
        h.scene.world.Transfers call.contract receiver (.ofNat (h.long 1).toNat))) ∧
    ∀ w, p.Reachable w → ∀ cancel call n fr h,
      (p.root cancel call w).Below p n fr → fr.Serves p h →
      (h.function = .sendBalance → h.Returns (.ofInt32 0) →
        h.scene.read h.caller (h.word 0) 33 = .ok fr.call.contract.bytes ∨
          h.long 1 ≤ (h.scene.world.service.ledger.balance fr.call.contract).toNat) ∧
      ((∃ fr', fr.Makes p h fr') ↔ h.function = .callContract ∧
        ∃ o, h.commission = .ok o ∧ o.fuel ≤ h.scene.guest.meter.remaining ∧
          (o.value = 0 ∨ h.scene.world.Transfers fr.call.contract o.target (.ofNat o.value))) ∧
      ∀ fr', fr.Makes p h fr' → fr'.call.value = 0 ∨ fr'.call.contract = fr.call.contract ∨
        fr'.call.value ≤ h.scene.world.service.ledger.balance fr.call.contract := by
  refine ⟨fun l sender receiver amount => ⟨Ledger.transfer_eq_ok_iff, fun _ _ =>
    Ledger.transfer_eq_insufficient_iff⟩, fun h hf => HostCall.returns_zero_iff hf,
    fun w hw cancel call n fr h hb hh => ?_⟩
  have htidy := Frame.tree_tidy hw.tidy hb.tree
  exact ⟨hh.funded htidy, hb.makes_iff hw.tidy rfl hh, fun fr' hm => hm.funded htidy⟩

set_option maxRecDepth 4000 in
theorem Platform.patron_has_what_it_sends :
    let p : Platform := ⟨{}, none, {}⟩
    let root := p.root none { fuel := 100 } .patronage
    ∃ h fr', root.Makes p h fr' ∧ fr'.call.value = 5 ∧
      5 ≤ h.scene.world.service.ledger.balance root.call.contract := by
  intro p root
  have hrun : (root.firstNested? p).map (fun fr' => (fr'.call.contract, fr'.call.value)) =
      some (.second, 5) := by
    decide +kernel
  obtain ⟨fr', hfr, hrun⟩ := Option.map_eq_some_iff.mp hrun
  obtain ⟨hcontract, hvalue⟩ := Prod.mk.inj hrun
  obtain ⟨h, hm⟩ := Frame.nests_of_firstNested? hfr
  have hfunded := (p.transfers_are_funded_unless_to_oneself.2.2 .patronage (.start rfl) none
    { fuel := 100 } 0 root h .root hm.serves.1).2.2 fr' hm
  rw [hcontract, hvalue] at hfunded
  refine ⟨h, fr', hm, hvalue, ?_⟩
  obtain hnone | hself | hle := hfunded
  · exact absurd hnone (by decide)
  · exact absurd hself (by decide)
  · exact hle

theorem Platform.pays_itself_out_of_nothing :
    let h : HostCall := ⟨.sendBalance, ⟨1, true, none⟩, [1, 5], .modest {}⟩
    let l := h.scene.world.service.ledger
    h.served?.map (·.contract) = some .zero ∧ l.balance .zero = 0 ∧
      (l.transfer .zero .zero 5).1 = .ok () ∧
      h.scene.read h.caller (h.word 0) 33 = .ok Address.zero.bytes ∧ h.long 1 = 5 ∧
      h.Returns (.ofInt32 0) := by
  intro h l
  have hread : h.scene.read h.caller (h.word 0) 33 = .ok Address.zero.bytes :=
    Scene.read_eq_ok_iff_read?.mpr ⟨rfl, by decide, by decide, by decide +kernel⟩
  have hp : h.Pays { fuel := 100 } .zero := ⟨by decide +kernel, hread, by decide⟩
  have hsame : h.scene.world.Transfers .zero .zero (.ofNat (h.long 1).toNat) := ⟨rfl, .inl rfl⟩
  exact ⟨by decide +kernel, rfl, Ledger.transfer_eq_ok_iff.mpr (.inl rfl), hread, by decide,
    (hp.returns_zero_iff rfl).mpr hsame⟩

end MeteredContracts
