import MeteredContracts.Proofs.FrameRules

namespace MeteredContracts

namespace Meter

theorem Spends.le_maxFuel {budget : UInt64} {m : Meter} (h : (new budget).Spends m) :
    m.remaining ≤ maxFuel := by
  have hr := h.remaining
  rw [remaining_new] at hr
  have hb := budget.toNat_lt
  simp only [maxFuel, UInt64.size]
  omega

theorem Spends.consumed {budget : UInt64} {m : Meter} (h : (new budget).Spends m) :
    m.consumed = budget.toNat - m.remaining := by
  have hi : m.initial + m.granted = budget.toNat := by
    rw [h.initial, h.granted]
    rfl
  have hb := budget.toNat_lt
  unfold Meter.consumed saturate
  rw [hi]
  simp only [maxFuel, UInt64.size]
  omega

end Meter

namespace Commission

variable (o : Commission) (m : Meter) (outcome : Option Outcome)

theorem remaining_debited : (o.debited m).remaining = m.remaining - o.fuel := by
  simp only [debited, Meter.remaining]
  omega

theorem spends_settled (hf : o.fuel ≤ m.remaining) : m.Spends (o.settled m outcome) := by
  refine ⟨rfl, rfl, ?_⟩
  rw [settled, Meter.remaining_refund, remaining_debited, saturate]
  omega

theorem remaining_settled (hf : o.fuel ≤ m.remaining) (hm : m.remaining ≤ maxFuel)
    (hu : used outcome ≤ o.fuel) :
    (o.settled m outcome).remaining = (o.debited m).remaining + (o.fuel - used outcome) ∧
      (o.settled m outcome).remaining + used outcome = m.remaining := by
  rw [settled, Meter.remaining_refund, remaining_debited, saturate]
  omega

end Commission

def Scene.Spends (s t : Scene) : Prop := s.guest.meter.Spends t.guest.meter

theorem spends_follows : Turn.Follows Scene.Spends where
  guest h := h.meter
  trans := Meter.Spends.trans

theorem Caller.spends_allows (c : Caller) : c.Allows Scene.Spends where
  refl s := .refl s.guest.meter
  trans := Meter.Spends.trans
  note s _ := .refl s.guest.meter
  ask s _ _ _ _ := .refl s.guest.meter
  overwrite s _ _ := .refl s.guest.meter
  record s _ := .refl s.guest.meter

theorem HostCall.run_spends {h : HostCall} (hf : h.function ∈ HostFunction.standard) :
    h.scene.Spends h.run.2 := by
  apply h.caller.spends_allows.run hf h.args h.scene
  intro hc
  show h.scene.Spends h.run.2
  rw [h.run_callContract hc]
  cases h.commission with
  | error e => exact .refl _
  | ok o =>
    dsimp only
    rw [o.carryOut_apply]
    split
    · exact .refl _
    next hfuel => exact o.spends_settled _ _ (Nat.not_lt.mp hfuel)

namespace Frame

variable {p : Platform} {fr : Frame} {ss : Session} {h : HostCall}

theorem start_spends {a : Loaded} {w : World} {s : Sandbox} {function : Nat}
    (hl : fr.loaded p = (.ok a, w)) (hf : fr.fresh p a w = .ok s)
    (hm : s.box.module.start = some function) :
    (Meter.new fr.call.fuel).Spends
      (s.run function [] { w with nextSandbox := w.nextSandbox + 1 }).2.1.guest.meter := by
  have hrun : s.guest.meter.Spends
      (s.run function [] { w with nextSandbox := w.nextSandbox + 1 }).2.1.guest.meter :=
    Sandbox.run_keeps spends_follows fun h hh =>
      HostCall.run_spends (Starts.caller ⟨a, w, s, function, hl, hf, hm, hh⟩).2
  rwa [(fresh_sandbox hf).meter] at hrun

theorem Starts.spends (hh : fr.Starts p h) : (Meter.new fr.call.fuel).Spends
    h.scene.guest.meter := by
  obtain ⟨a, w, s, function, hl, hf, hm, hh⟩ := hh
  have hrun : s.guest.meter.Spends h.scene.guest.meter :=
    hh.keeps spends_follows fun h hh =>
      HostCall.run_spends (Starts.caller ⟨a, w, s, function, hl, hf, hm, hh⟩).2
  rwa [(fresh_sandbox hf).meter] at hrun

theorem session_spends (hs : fr.session? p = some ss) :
    (Meter.new fr.call.fuel).Spends ss.sandbox.guest.meter := by
  obtain ⟨a, w, s, s', w', hl, hf, hb, rfl⟩ := session?_eq_some hs
  change (Meter.new fr.call.fuel).Spends s'.guest.meter
  unfold started Sandbox.runStart at hb
  split at hb
  · cases hb
    rw [(fresh_sandbox hf).meter]
    exact .refl _
  next function hm =>
    have hrun := start_spends hl hf hm
    split at hb
    next hr =>
      cases hb
      rwa [hr] at hrun
    next => cases hb

theorem Serves.spends (hh : fr.Serves p h) : (Meter.new fr.call.fuel).Spends
    h.scene.guest.meter := by
  obtain ⟨ss, hs, hh⟩ := hh
  have hkeeps : ss.sandbox.guest.meter.Spends h.scene.guest.meter :=
    hh.keeps spends_follows fun h hh => HostCall.run_spends (Serves.caller ⟨ss, hs, hh⟩).2
  exact (session_spends hs).trans hkeeps

theorem invoke_spends (hs : fr.session? p = some ss) : (Meter.new fr.call.fuel).Spends
    (ss.sandbox.invoke fr.call.function fr.call.payload ss.world).2.1.guest.meter := by
  have hkeeps : ss.sandbox.guest.meter.Spends
      (ss.sandbox.invoke fr.call.function fr.call.payload ss.world).2.1.guest.meter :=
    Sandbox.invoke_keeps spends_follows
      (fun h hh => HostCall.run_spends (Serves.caller ⟨ss, hs, hh⟩).2) fun t => .refl t.guest.meter
  exact (session_spends hs).trans hkeeps

theorem fuelUsed_le (p : Platform) (fr : Frame) :
    (p.run fr).1.fuelUsed ≤ fr.call.fuel.toNat := by
  have hc := p.course fr
  generalize p.run fr = r at hc ⊢
  cases hc with
  | unloaded => exact Nat.zero_le _
  | unfit => exact Nat.zero_le _
  | unstarted => exact Nat.zero_le _
  | @served a w s s' w' ss r hl hf hb hs _ hr =>
    subst hr
    show (ss.sandbox.invoke fr.call.function fr.call.payload ss.world).2.1.consumedFuel ≤ _
    rw [Sandbox.consumedFuel, (invoke_spends hs).consumed]
    exact Nat.sub_le _ _

theorem Serves.perform_fuelUsed_le {o : Commission} (hh : fr.Serves p h)
    (ho : h.commission = .ok o) (w : World) :
    (o.delegate.perform o.call w).1.fuelUsed ≤ o.call.fuel.toNat := by
  have hd := (h.caller.commission_fst_eq_ok ho).2.1
  rw [← Option.some.inj (hh.caller.1.symm.trans hd)]
  cases fr.levels with
  | zero => exact Nat.zero_le _
  | succ levels => exact fuelUsed_le p ⟨levels, none, o.call, w⟩

end Frame

structure Commission.Billed (o : Commission) (before after : Meter) (used : Nat) : Prop where
  covered : o.fuel ≤ before.remaining
  budget : o.call.fuel.toNat = o.fuel
  bounded : used ≤ o.fuel
  debit : (o.debited before).remaining + o.fuel = before.remaining
  refund : after.remaining = (o.debited before).remaining + (o.fuel - used)
  cost : after.remaining + used = before.remaining

namespace Commission

variable {o : Commission} {m : Meter}

theorem call_fuel (hf : o.fuel ≤ m.remaining) (hm : m.remaining ≤ maxFuel) :
    o.call.fuel.toNat = o.fuel := by
  show (UInt64.ofNat o.fuel).toNat = o.fuel
  simp only [maxFuel, UInt64.size] at hm
  rw [UInt64.toNat_ofNat']
  omega

theorem billed_settled (outcome : Option Outcome) (hf : o.fuel ≤ m.remaining)
    (hm : m.remaining ≤ maxFuel) (hu : used outcome ≤ o.fuel) :
    o.Billed m (o.settled m outcome) (used outcome) where
  covered := hf
  budget := call_fuel hf hm
  bounded := hu
  debit := by
    rw [remaining_debited]
    omega
  refund := (o.remaining_settled m outcome hf hm hu).1
  cost := (o.remaining_settled m outcome hf hm hu).2

end Commission

inductive HostCall.Accounts (h : HostCall) : Prop
  | unchecked {e : Failure} :
      h.commission = .error e → h.run = (.error e, h.scene) → Accounts h
  | uncovered {o : Commission} :
      h.commission = .ok o → h.scene.guest.meter.remaining < o.fuel →
      h.run = (.error (.call .fuelExhausted), h.scene) → Accounts h
  | refused {o : Commission} {w : World} :
      h.commission = .ok o → o.transfer h.scene.world = (false, w) →
      h.run.1 = .ok (.values [.ofInt64 (-1)]) →
      o.Billed h.scene.guest.meter h.run.2.guest.meter 0 → Accounts h
  | failed {o : Commission} {w w' : World} {e : CallError} {used : Nat} :
      h.commission = .ok o → o.transfer h.scene.world = (true, w) →
      o.delegate.perform o.call w = (⟨.error e, used⟩, w') →
      h.run.1 = .ok (.values [.ofInt64 (-1)]) →
      o.Billed h.scene.guest.meter h.run.2.guest.meter used → Accounts h
  | succeeded {o : Commission} {w w' : World} {bytes : Bytes} {used : Nat} :
      h.commission = .ok o → o.transfer h.scene.world = (true, w) →
      o.delegate.perform o.call w = (⟨.ok bytes, used⟩, w') →
      h.run.1 = .ok (.deliver bytes) →
      o.Billed h.scene.guest.meter h.run.2.guest.meter used → Accounts h

namespace HostCall

variable {h : HostCall}

theorem accounts (hc : h.function = .callContract)
    (hm : h.scene.guest.meter.remaining ≤ maxFuel)
    (reports : ∀ o w, h.commission = .ok o →
      (o.delegate.perform o.call w).1.fuelUsed ≤ o.call.fuel.toNat) : h.Accounts := by
  cases ho : h.commission with
  | error e =>
    refine .unchecked ho ?_
    rw [h.run_callContract hc, ho]
  | ok o =>
    by_cases hf : o.fuel ≤ h.scene.guest.meter.remaining
    · obtain ⟨hreply, hmeter, -⟩ := h.run_of_covered hc ho hf
      have hbudget := Commission.call_fuel hf hm
      unfold Commission.outcome at hreply hmeter
      rcases ht : o.transfer h.scene.world with ⟨_ | _, w⟩
      · rw [ht] at hreply hmeter
        refine .refused ho ht hreply ?_
        rw [hmeter]
        exact Commission.billed_settled none hf hm (Nat.zero_le _)
      · rw [ht] at hreply hmeter
        dsimp only at hreply hmeter
        have hr := reports o w ho
        rcases hp : o.delegate.perform o.call w with ⟨⟨e | bytes, used⟩, w'⟩
        · rw [hp, hbudget] at hr
          rw [hp] at hreply hmeter
          refine .failed ho ht hp hreply ?_
          rw [hmeter]
          exact Commission.billed_settled (some _) hf hm hr
        · rw [hp, hbudget] at hr
          rw [hp] at hreply hmeter
          refine .succeeded ho ht hp hreply ?_
          rw [hmeter]
          exact Commission.billed_settled (some _) hf hm hr
    · refine .uncovered ho (Nat.not_le.mp hf) ?_
      rw [h.run_callContract hc, ho]
      dsimp only
      rw [o.carryOut_apply, if_pos (Nat.not_le.mp hf)]

end HostCall

theorem Frame.Makes.cost {p : Platform} {fr fr' : Frame} {h : HostCall} (hm : fr.Makes p h fr') :
    h.run.2.guest.meter.remaining + (p.run fr').1.fuelUsed = h.scene.guest.meter.remaining := by
  cases hm with
  | @intro levels o w hl hh hc ho hf ht =>
    have hmax := hh.spends.le_maxFuel
    have hu := hh.perform_fuelUsed_le ho w
    rw [Commission.call_fuel hf hmax] at hu
    have hmeter := (h.run_of_covered hc ho hf).2.1
    unfold Commission.outcome at hmeter
    rw [ht] at hmeter
    dsimp only at hmeter
    have hcost := (o.remaining_settled _ (some (o.delegate.perform o.call w).1) hf hmax hu).2
    rw [← hmeter] at hcost
    rwa [hh.perform_eq hl ho] at hcost

/-- Fuel is conserved over all trees of calls: no frame reports more than its budget, and a nested
call costs its caller what its frame reports, wherever in the tree it is made. -/
theorem Platform.fuel_conserved (p : Platform) :
    p.RunsFrames ∧
    (∀ cancel call w, (p.execute cancel call w).1.fuelUsed ≤ call.fuel.toNat) ∧
    (∀ fr : Frame, (p.run fr).1.fuelUsed ≤ fr.call.fuel.toNat) ∧
    ∀ (fr : Frame) (h : HostCall), fr.Serves p h ∨ fr.Starts p h → h.function = .callContract →
      h.Accounts := by
  refine ⟨p.runsFrames, fun cancel call w => Frame.fuelUsed_le p (p.root cancel call w),
    Frame.fuelUsed_le p, fun fr h hh hc => ?_⟩
  obtain hh | hh := hh
  · exact HostCall.accounts hc hh.spends.le_maxFuel fun o w ho => hh.perform_fuelUsed_le ho w
  · exact HostCall.accounts hc hh.spends.le_maxFuel fun o w ho =>
      absurd ho (Frame.commission_starts hh o)

end MeteredContracts
