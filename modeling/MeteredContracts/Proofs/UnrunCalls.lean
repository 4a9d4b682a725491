import MeteredContracts.Proofs.Contexts
import MeteredContracts.Proofs.Transfers

namespace MeteredContracts

namespace World

def Idles (sandbox : Nat) (u v : World) : Prop :=
  u.registry.get? sandbox = none → v.registry = u.registry ∧ v.service = u.service

variable {sandbox : Nat}

theorem Idles.of_eq {u v : World} (hr : v.registry = u.registry) (hs : v.service = u.service) :
    u.Idles sandbox v := fun _ => ⟨hr, hs⟩

theorem Idles.trans {u v w : World} (h : u.Idles sandbox v) (h' : v.Idles sandbox w) :
    u.Idles sandbox w := by
  intro hu
  obtain ⟨hr, hs⟩ := h hu
  obtain ⟨hr', hs'⟩ := h' (hr ▸ hu)
  exact ⟨hr'.trans hr, hs'.trans hs⟩

theorem idles_follows (sandbox : Nat) : Turn.Follows fun s t => s.world.Idles sandbox t.world where
  guest h := by
    obtain ⟨clock, hw⟩ := h.world
    rw [hw]
    exact .of_eq rfl rfl
  trans := .trans

theorem idles_allows (c : Caller) : c.Allows fun s t => s.world.Idles c.sandbox t.world where
  refl _ := .of_eq rfl rfl
  trans := .trans
  note _ _ := .of_eq rfl rfl
  ask s call r hl _ hnone := by
    rw [Registry.lookup, hnone] at hl
    cases hl
  overwrite _ _ _ := .of_eq rfl rfl
  record _ _ := .of_eq rfl rfl

end World

namespace Frame

variable {p : Platform} {root fr fr' : Frame} {h : HostCall}

theorem started_idles {a : Loaded} {w : World} {s : Sandbox} (hl : fr.loaded p = (.ok a, w))
    (hf : fr.fresh p a w = .ok s) :
    World.Idles w.nextSandbox { w with nextSandbox := w.nextSandbox + 1 } (started s w).2 := by
  -- the sandbox has its name already, but its call is put on the registry only after this
  apply Sandbox.runStart_keeps (World.idles_follows _)
  intro function h hm hh
  have hstarts : fr.Starts p h := ⟨a, w, s, function, hl, hf, hm, hh⟩
  rw [← (fresh_sandbox hf).id, ← hh.caller.1]
  apply (World.idles_allows h.caller).run hstarts.caller.2 h.args h.scene
  intro hc
  show World.Idles _ h.scene.world h.run.2.world
  rw [h.run_callContract hc]
  cases ho : h.commission with
  | error e => exact .of_eq rfl rfl
  | ok o => exact absurd ho (commission_starts hstarts o)

theorem run_of_unserved (hw : fr.world.Tidy) (hs : fr.session? p = none) :
    (∃ e, (p.run fr).1.output = .error e) ∧ (p.run fr).2.service = fr.world.service := by
  have hloads := fr.loads_loaded p
  have hc := p.course fr
  generalize p.run fr = r at hc ⊢
  cases hc with
  | @unloaded e w hl =>
    rw [hl] at hloads
    obtain ⟨cache, journal, rfl⟩ := hloads
    exact ⟨⟨e, rfl⟩, rfl⟩
  | @unfit a w e hl hf =>
    rw [hl] at hloads
    obtain ⟨cache, journal, rfl⟩ := hloads
    exact ⟨⟨e, rfl⟩, rfl⟩
  | @unstarted a w s e w' hl hf hb =>
    have hidles := started_idles hl hf
    rw [hb] at hidles
    rw [hl] at hloads
    have htidy := hloads.keepsRegistry.tidy hw
    obtain ⟨cache, journal, rfl⟩ := hloads
    exact ⟨⟨e, rfl⟩, (hidles htidy.get?_nextSandbox).2⟩
  | served _ _ _ hs' _ _ =>
    rw [hs] at hs'
    cases hs'

end Frame

theorem World.ask_reaches (w : World) (r : Request) :
    w.service.ledger.serve r = ((w.ask r).1, (w.ask r).2.service.ledger) ∨
      (∃ e, (w.ask r).1 = .error e) ∧ (w.ask r).2.service.ledger = w.service.ledger := by
  unfold ask Service.ask
  cases w.service.outages.get? r.method with
  | some text => exact .inr ⟨⟨_, rfl⟩, rfl⟩
  | none => exact .inl rfl

namespace Commission

variable {o : Commission} {w w' : World}

theorem transfer_eq_true (h : o.transfer w = (true, w')) :
    o.value = 0 ∧ w' = w ∨
      w.service.ledger.transfer o.sponsor.contract o.target (.ofNat o.value) =
        (.ok (), w'.service.ledger) := by
  have hreaches := w.ask_reaches (.transferBalance o.sponsor.contract o.target (.ofNat o.value))
  unfold transfer at h
  split at h
  next hv =>
    cases h
    exact .inl ⟨hv, rfl⟩
  · split at h
    next hask =>
      cases h
      rw [hask] at hreaches
      obtain hserve | ⟨⟨e, he⟩, -⟩ := hreaches
      · exact .inr hserve
      · cases he
    next => cases h

theorem balance_transfer_eq_false (h : o.transfer w = (false, w')) (a : Address) :
    w'.service.ledger.balance a = w.service.ledger.balance a := by
  have hreaches := w.ask_reaches (.transferBalance o.sponsor.contract o.target (.ofNat o.value))
  unfold transfer at h
  split at h
  · cases h
  · split at h
    · cases h
    next e _ hask =>
      cases h
      rw [hask] at hreaches
      obtain hserve | ⟨-, hledger⟩ := hreaches
      · have hledger : (w.service.ledger.transfer _ _ _).2 = w'.service.ledger :=
          congrArg Prod.snd hserve
        rw [← hledger]
        exact Ledger.balance_transfer_error (congrArg Prod.fst hserve) a
      · rw [hledger]

end Commission

namespace Frame

variable {p : Platform} {root fr fr' : Frame} {h : HostCall}

theorem Makes.sent (hm : fr.Makes p h fr') (hw : fr.world.Tidy) :
    fr'.call.value = 0 ∧ fr'.world.service.ledger = h.scene.world.service.ledger ∨
      h.scene.world.service.ledger.transfer fr.call.contract fr'.call.contract fr'.call.value =
        (.ok (), fr'.world.service.ledger) := by
  cases hm with
  | @intro levels o w hl hh hf ho hfuel ht =>
    have hsender : o.sponsor.contract = fr.call.contract := by rw [hh.sponsor_eq hw ho]
    obtain ⟨hv, rfl⟩ | hsent := o.transfer_eq_true ht
    · refine .inl ⟨?_, rfl⟩
      show UInt64.ofNat o.value = 0
      rw [hv]
      rfl
    · rw [hsender] at hsent
      exact .inr hsent

theorem Makes.paid (hm : fr.Makes p h fr') (hw : fr.world.Tidy)
    (hne : fr'.call.contract ≠ fr.call.contract) :
    (fr'.world.service.ledger.balance fr.call.contract).toNat + fr'.call.value.toNat =
        (h.scene.world.service.ledger.balance fr.call.contract).toNat ∧
      (fr'.world.service.ledger.balance fr'.call.contract).toNat =
        (h.scene.world.service.ledger.balance fr'.call.contract).toNat + fr'.call.value.toNat := by
  obtain ⟨hv, hledger⟩ | hsent := hm.sent hw
  · rw [hv, hledger]
    exact ⟨rfl, rfl⟩
  · obtain ⟨hs, hr, -⟩ := Ledger.balance_transfer_ok hne.symm (congrArg Prod.fst hsent)
    rw [hsent] at hs hr
    exact ⟨hs, hr⟩

theorem Makes.balance_eq_iff (hm : fr.Makes p h fr') (hw : fr.world.Tidy) :
    (∀ a, fr'.world.service.ledger.balance a = h.scene.world.service.ledger.balance a) ↔
      fr'.call.value = 0 ∨ fr'.call.contract = fr.call.contract := by
  constructor
  · intro h
    by_cases hself : fr'.call.contract = fr.call.contract
    · exact .inr hself
    · have hpaid := (hm.paid hw hself).1
      rw [h] at hpaid
      exact .inl (UInt64.toNat_inj.mp (Nat.add_eq_left.mp hpaid))
  · intro hidle a
    obtain ⟨-, hledger⟩ | hsent := hm.sent hw
    · rw [hledger]
    · exact Ledger.balance_transfer_idle hsent hidle a

theorem Makes.run_of_unserved (hm : fr.Makes p h fr') (hw : fr.world.Tidy)
    (hs : fr'.session? p = none) :
    h.run.1 = .ok (.values [.ofInt64 (-1)]) ∧
      h.run.2.world.service = fr'.world.service := by
  obtain ⟨⟨e, he⟩, hservice⟩ := fr'.run_of_unserved (Nests.tidy ⟨h, hm⟩ hw) hs
  obtain ⟨hreply, hworld⟩ := hm.run_eq
  rw [hworld]
  refine ⟨?_, hservice⟩
  rw [hreply]
  rcases hrun : (p.run fr').1 with ⟨output, fuelUsed⟩
  rw [hrun] at he
  cases he
  rfl

theorem Below.makes_or_refused {n : Nat} {r : Reply} (hb : root.Below p n fr)
    (hw : root.world.Tidy)
    (hroot : root.levels = p.config.execution.maxCallDepth.toNat - root.call.depth.toNat)
    (hh : fr.Serves p h) (hf : h.function = .callContract) (hr : h.run.1 = .ok r) :
    (∃ fr', fr.Makes p h fr') ∨ ∀ a,
      h.run.2.world.service.ledger.balance a = h.scene.world.service.ledger.balance a := by
  obtain ⟨o, ho, hfuel⟩ := h.commission_of_run hf hr
  rcases ht : o.transfer h.scene.world with ⟨_ | _, w⟩
  · right
    have hworld := (h.run_of_covered hf ho hfuel).2.2
    rw [Commission.outcome, ht] at hworld
    rw [hworld]
    exact o.balance_transfer_eq_false ht
  · left
    obtain ⟨levels, hl⟩ := hb.levels_of_commission hw hroot hh ho
    exact ⟨_, .intro hl hh hf ho hfuel ht⟩

end Frame

/-- Where a nested call has come to nothing before it was served, no balance has changed exactly if
its value was refused, or none was sent, or it went to the caller itself. Otherwise the account that
was called has the value, and the caller does not. -/
theorem Platform.Reachable.unserved_calls_keep_value {p : Platform} {w : World}
    (hw : p.Reachable w) (cancel : Cancellation) (call : Call) :
    ∀ n fr h, (p.root cancel call w).Below p n fr → fr.Serves p h → h.function = .callContract →
      h.run.1 = .ok (.values [.ofInt64 (-1)]) → (∀ fr', fr.Makes p h fr' → fr'.session? p = none) →
      let before := h.scene.world.service.ledger
      let after := h.run.2.world.service.ledger
      ((∀ a, after.balance a = before.balance a) ↔
        ∀ fr', fr.Makes p h fr' → fr'.call.value = 0 ∨ fr'.call.contract = fr.call.contract) ∧
      ∀ fr', fr.Makes p h fr' → fr'.call.contract ≠ fr.call.contract →
        (after.balance fr.call.contract).toNat + fr'.call.value.toNat =
            (before.balance fr.call.contract).toNat ∧
          (after.balance fr'.call.contract).toNat =
            (before.balance fr'.call.contract).toNat + fr'.call.value.toNat := by
  intro n fr h hb hh hf hr hunserved before after
  have htidy := Frame.tree_tidy hw.tidy hb.tree
  have hafter (fr' : Frame) (hm : fr.Makes p h fr') : after = fr'.world.service.ledger :=
    congrArg Service.ledger (hm.run_of_unserved htidy (hunserved fr' hm)).2
  refine ⟨⟨fun hsame fr' hm => ?_, fun hidle => ?_⟩, fun fr' hm hne => ?_⟩
  · rw [hafter fr' hm] at hsame
    exact (hm.balance_eq_iff htidy).mp hsame
  · obtain ⟨fr', hm⟩ | hrefused := hb.makes_or_refused hw.tidy rfl hh hf hr
    · rw [hafter fr' hm]
      exact (hm.balance_eq_iff htidy).mpr (hidle fr' hm)
    · exact hrefused
  · rw [hafter fr' hm]
    exact hm.paid htidy hne

def World.patronageOfNobody : World :=
  { World.hosting .patron with service.ledger.balances := Table.empty.insert .zero 5 }

set_option maxRecDepth 4000 in
theorem Frame.makes_for_nobody :
    let p : Platform := ⟨{}, none, {}⟩
    let root := p.root none { fuel := 100 } .patronageOfNobody
    ∃ h fr', root.Makes p h fr' ∧ fr'.session? p = none ∧
      fr'.call.contract = .second ∧ fr'.call.value = 5 ∧
      fr'.world.service.ledger.balance .zero = 0 ∧
      fr'.world.service.ledger.balance .second = 5 := by
  intro p root
  have hrun : (root.firstNested? p).map (fun fr =>
      ((fr.session? p).isNone, fr.call.contract, fr.call.value,
        fr.world.service.ledger.balance .zero, fr.world.service.ledger.balance .second)) =
        some (true, .second, 5, 0, 5) := by
    decide +kernel
  obtain ⟨fr', hfr, hrun⟩ := Option.map_eq_some_iff.mp hrun
  simp only [Prod.mk.injEq, Option.isNone_iff_eq_none] at hrun
  obtain ⟨h, hm⟩ := nests_of_firstNested? hfr
  exact ⟨h, fr', hm, hrun⟩

theorem Platform.Reachable.unserved_call_keeps_the_value_of_a_patron :
    let p : Platform := ⟨{}, none, {}⟩
    let w := World.patronageOfNobody
    let root := p.root none { fuel := 100 } w
    ∃ h fr', p.Reachable w ∧ root.Below p 0 root ∧ root.Serves p h ∧
      h.function = .callContract ∧ h.run.1 = .ok (.values [.ofInt64 (-1)]) ∧
      (∀ fr', root.Makes p h fr' → fr'.session? p = none) ∧ root.Makes p h fr' ∧
      (h.run.2.world.service.ledger.balance .zero).toNat + 5 =
        (h.scene.world.service.ledger.balance .zero).toNat := by
  intro p w root
  obtain ⟨h, fr', hm, hs, hcontract, hvalue, -⟩ := Frame.makes_for_nobody
  have hreachable : p.Reachable w := .start rfl
  have hreply := (hm.run_of_unserved hreachable.tidy hs).1
  have hunserved (fr'' : Frame) (hm' : root.Makes p h fr'') : fr''.session? p = none :=
    hm.unique hm' ▸ hs
  have hkept := (hreachable.unserved_calls_keep_value none { fuel := 100 } 0 root h .root
    hm.serves.1 hm.serves.2 hreply hunserved).2 fr' hm (by rw [hcontract]; decide)
  rw [hvalue] at hkept
  exact ⟨h, fr', hreachable, .root, hm.serves.1, hm.serves.2, hreply, hunserved, hm, hkept.1⟩

theorem Platform.patron_pays_nobody :
    let p : Platform := ⟨{}, none, {}⟩
    let root := p.root none { fuel := 100 } .patronageOfNobody
    ∃ h, root.Serves p h ∧ h.function = .callContract ∧
      h.run.1 = .ok (.values [.ofInt64 (-1)]) ∧
      (∀ fr', root.Makes p h fr' → fr'.session? p = none) ∧
      (h.scene.world.service.ledger.balance .zero = 5 ∧
        h.scene.world.service.ledger.balance .second = 0) ∧
      h.run.2.world.service.ledger.balance .zero = 0 ∧
      h.run.2.world.service.ledger.balance .second = 5 := by
  intro p root
  obtain ⟨h, fr', hm, hs, hcontract, hvalue, hzero, hsecond⟩ := Frame.makes_for_nobody
  have hreachable : p.Reachable .patronageOfNobody := .start rfl
  have hpaid := hm.paid hreachable.tidy (by rw [hcontract]; decide)
  have hcaller : root.call.contract = .zero := rfl
  rw [hcaller, hvalue, hcontract, hzero, hsecond] at hpaid
  have hnothing : (h.scene.world.service.ledger.balance .second).toNat = 0 := by omega
  obtain ⟨hreply, hservice⟩ := hm.run_of_unserved hreachable.tidy hs
  rw [← hservice] at hzero hsecond
  exact ⟨h, hm.serves.1, hm.serves.2, hreply,
    fun fr'' hm' => hm.unique hm' ▸ hs,
    ⟨UInt64.toNat_inj.mp hpaid.1.symm, UInt64.toNat_inj.mp hnothing⟩, hzero, hsecond⟩

end MeteredContracts
