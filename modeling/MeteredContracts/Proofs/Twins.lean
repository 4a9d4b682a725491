import MeteredContracts.Proofs.FrameRules
import MeteredContracts.Proofs.Lockstep

namespace MeteredContracts

namespace Sandbox

variable {validator : Option Validator} {s t : Sandbox} {u v : World}

inductive StartsAlike (validator : Option Validator) :
    Except CallError Sandbox × World → Except CallError Sandbox × World → Prop
  | failed {e : CallError} {u v : World} :
      u.Alike validator v → StartsAlike validator (.error e, u) (.error e, v)
  | started {s t : Sandbox} {u v : World} :
      s.Alike validator t → u.Alike validator v → StartsAlike validator (.ok s, u) (.ok t, v)

theorem runStart_alike (hst : s.Alike validator t) (huv : u.Alike validator v) :
    StartsAlike validator (s.runStart u) (t.runStart v) := by
  unfold runStart
  rw [← hst.box]
  cases s.box.module.start with
  | none => exact .started hst huv
  | some function =>
    obtain ⟨hr, hst, huv⟩ := run_alike hst huv function []
    dsimp only
    generalize s.run function [] u = x at hr hst huv ⊢
    generalize t.run function [] v = y at hr hst huv ⊢
    obtain ⟨r, s', u'⟩ := x
    obtain ⟨r', t', v'⟩ := y
    obtain rfl : r = r' := hr
    cases r with
    | error e => exact .failed huv
    | ok _ => exact .started hst huv

theorem instantiate_alike {config : EngineConfig} (he : config.epochInterruption = false)
    (huv : u.Alike validator v) (host : List HostFunction) (execution : ExecutionConfig)
    (module : Wasm.Module) (fuel : UInt64) (engine : Engine) :
    StartsAlike validator (instantiate host config execution module fuel u engine)
      (instantiate host config execution module fuel v engine) := by
  have hnamed : ({ u with nextSandbox := u.nextSandbox + 1 } : World).Alike validator
      { v with nextSandbox := v.nextSandbox + 1 } :=
    { huv with nextSandbox := congrArg (· + 1) huv.nextSandbox }
  unfold instantiate
  dsimp only
  rw [prepare_of_timeless he hnamed.registry, huv.nextSandbox]
  cases hp : prepare host config execution v.nextSandbox module fuel
      { v with nextSandbox := v.nextSandbox + 1 } engine with
  | error e => exact .failed (huv.nextSandbox ▸ hnamed)
  | ok s =>
    have hd := (fresh_of_prepare hp).delegate
    have hs : s.Alike validator s := ⟨rfl, timeless_of_prepare he hp, rfl, rfl, hd ▸ .none⟩
    exact runStart_alike hs (huv.nextSandbox ▸ hnamed)

end Sandbox

namespace Platform

structure Twins (p q : Platform) : Prop where
  engine : p.engine = q.engine
  setup : p.config.engine = q.config.engine
  execution : p.config.execution = q.config.execution
  validator : p.validator = q.validator
  timeless : p.config.engine.epochInterruption = false

variable {p q : Platform} {u v : World} {cancel : Cancellation} {call : Call}

theorem prepare_alike (hpq : p.Twins q) (huv : u.Alike p.validator v) (cancel : Cancellation)
    (call : Call) :
    (p.prepare cancel call u).2.Alike p.validator (q.prepare cancel call v).2 := by
  have hright : v.Faithful q.validator := hpq.validator ▸ huv.right
  have hleft' := (prepare_faithfully huv.left cancel call).faithful huv.left
    (p.prepare_service cancel call u)
  have hright' := (prepare_faithfully hright cancel call).faithful hright
    (q.prepare_service cancel call v)
  rw [← hpq.validator] at hright'
  obtain ⟨cache, journal, hu⟩ := p.loads_prepare cancel call u
  obtain ⟨cache', journal', hv⟩ := q.loads_prepare cancel call v
  rw [hu] at hleft' ⊢
  rw [hv] at hright' ⊢
  exact { huv with left := hleft', right := hright' }

theorem finish_alike {validator : Option Validator} {s t : Sandbox} (hst : s.Alike validator t)
    (huv : u.Alike validator v) (call : Call) (hit hit' : Bool) :
    ((Session.begin call hit s u).finish call).1 = ((Session.begin call hit' t v).finish call).1 ∧
      ((Session.begin call hit s u).finish call).2.Alike validator
        ((Session.begin call hit' t v).finish call).2 := by
  have hid : s.id = t.id := congrArg Box.id hst.box
  have hregistered (call : Call) : ({ u with
      registry := Registry.register u.registry s.id call } : World).Alike validator
      { v with registry := Registry.register v.registry t.id call } :=
    { huv with registry := by rw [huv.registry, hid] }
  unfold Session.begin Session.finish
  dsimp only
  rw [hid] at hregistered ⊢
  obtain ⟨hr, hst, huv⟩ := Sandbox.invoke_alike hst
    (hregistered { call with sandbox := some t.id }) call.function call.payload
  generalize s.invoke call.function call.payload _ = x at hr hst huv ⊢
  generalize t.invoke call.function call.payload _ = y at hr hst huv ⊢
  obtain ⟨r, s', u'⟩ := x
  obtain ⟨r', t', v'⟩ := y
  obtain rfl : r = r' := hr
  have hfuel : s'.consumedFuel = t'.consumedFuel := congrArg (·.meter.consumed) hst.guest
  dsimp only
  rw [hfuel]
  refine ⟨rfl, { huv with registry := ?_, calls := ?_, fuelUsed := ?_ }⟩
  · show Registry.release u'.registry s'.id = Registry.release v'.registry t'.id
    rw [huv.registry, show s'.id = t'.id from congrArg Box.id hst.box]
  · exact congrArg (· + 1) huv.calls
  · exact congrArg (· + .ofNat t'.consumedFuel) huv.fuelUsed

theorem perform_alike (hpq : p.Twins q) {d d' : Delegate} (hd : d.Alike p.validator d')
    (huv : u.Alike p.validator v) (call : Call)
    (hc : u.service.SparesLoading cancel) :
    (p.perform d cancel call u).1 = (q.perform d' cancel call v).1 ∧
      (p.perform d cancel call u).2.Alike p.validator (q.perform d' cancel call v).2 := by
  have hartifact := prepare_artifact_eq call hpq.validator huv.service huv.left
    (hpq.validator ▸ huv.right) hc
  have hprepared := prepare_alike hpq huv cancel call
  unfold perform
  generalize p.prepare cancel call u = x at hartifact hprepared ⊢
  generalize q.prepare cancel call v = y at hartifact hprepared ⊢
  obtain ⟨e | a, u'⟩ := x
  · obtain ⟨e' | a', v'⟩ := y
    · cases hartifact
      exact ⟨rfl, hprepared⟩
    · cases hartifact
  · obtain ⟨e' | a', v'⟩ := y
    · cases hartifact
    · have ha : a.artifact = a'.artifact := Except.ok.inj hartifact
      have hstart := Sandbox.instantiate_alike hpq.timeless hprepared HostFunction.standard
        p.config.execution a.artifact.module call.fuel p.engine
      dsimp only
      rw [← hpq.engine, ← hpq.setup, ← hpq.execution, ← ha]
      dsimp only at hstart
      generalize Sandbox.instantiate _ _ _ _ _ u' _ = x at hstart ⊢
      generalize Sandbox.instantiate _ _ _ _ _ v' _ = y at hstart ⊢
      cases hstart with
      | failed huv => exact ⟨rfl, huv⟩
      | @started s t _ _ hst huv =>
        have hst' : Sandbox.Alike p.validator { s with delegate := some d }
            { t with delegate := some d' } :=
          ⟨hst.box, hst.timeless, hst.guest, hst.result, .some hd⟩
        exact finish_alike hst' huv call _ _

theorem delegate_alike (hpq : p.Twins q) (levels : Nat) :
    (p.delegate levels).Alike p.validator (q.delegate levels) := by
  induction levels with
  | zero =>
    refine ⟨congrArg (·.maxCallDepth) hpq.execution, fun call huv => ⟨?_, huv⟩⟩
    show Outcome.mk _ _ = Outcome.mk _ _
    rw [hpq.execution]
  | succ levels ih =>
    exact ⟨congrArg (·.maxCallDepth) hpq.execution,
      fun call huv => perform_alike hpq ih huv call nofun⟩

theorem execute_alike (hpq : p.Twins q) (huv : u.Alike p.validator v) (call : Call)
    (hc : u.service.SparesLoading cancel) :
    (p.execute cancel call u).1 = (q.execute cancel call v).1 ∧
      (p.execute cancel call u).2.Alike p.validator (q.execute cancel call v).2 := by
  unfold execute
  rw [← hpq.execution]
  exact perform_alike hpq (delegate_alike hpq _) huv call hc

end Platform

end MeteredContracts
