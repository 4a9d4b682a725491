import MeteredContracts.Proofs.FuelConservation

namespace MeteredContracts

namespace Sandbox

def afterStart (s : Sandbox) (w : World) : Sandbox :=
  match s.box.module.start with
  | none => s
  | some function => (s.run function [] w).2.1

end Sandbox

namespace Frame

variable (p : Platform) (fr : Frame)

def sandboxLeft? : Option Sandbox :=
  match fr.loaded p with
  | (.error _, _) => none
  | (.ok a, w) =>
    match fr.fresh p a w with
    | .error _ => none
    | .ok s =>
      match fr.session? p with
      | none => some (s.afterStart { w with nextSandbox := w.nextSandbox + 1 })
      | some ss => some (ss.sandbox.invoke fr.call.function fr.call.payload ss.world).2.1

def fuelLeft : Nat :=
  match fr.sandboxLeft? p with
  | none => fr.call.fuel.toNat
  | some s => s.remainingFuel

def FailsToStart : Prop :=
  ∃ a w s e w', fr.loaded p = (.ok a, w) ∧ fr.fresh p a w = .ok s ∧ started s w = (.error e, w')

variable {p fr}

theorem failed_start_spends {a : Loaded} {w : World} {s : Sandbox} {e : CallError} {w' : World}
    (hl : fr.loaded p = (.ok a, w)) (hf : fr.fresh p a w = .ok s)
    (hb : started s w = (.error e, w')) : (Meter.new fr.call.fuel).Spends
      (s.afterStart { w with nextSandbox := w.nextSandbox + 1 }).guest.meter := by
  unfold started Sandbox.runStart at hb
  unfold Sandbox.afterStart
  cases hm : s.box.module.start with
  | none =>
    rw [hm] at hb
    cases hb
  | some function => exact start_spends hl hf hm

theorem reports (p : Platform) (fr : Frame) :
    fr.fuelLeft p ≤ fr.call.fuel.toNat ∧
      (fr.FailsToStart p ∧ (p.run fr).1.fuelUsed = 0 ∨
        ¬fr.FailsToStart p ∧ (p.run fr).1.fuelUsed = fr.call.fuel.toNat - fr.fuelLeft p) := by
  have hc := p.course fr
  generalize p.run fr = r at hc ⊢
  cases hc with
  | unloaded hl =>
    have hleft : fr.fuelLeft p = fr.call.fuel.toNat := by simp only [fuelLeft, sandboxLeft?, hl]
    refine ⟨Nat.le_of_eq hleft, .inr ⟨?_, ?_⟩⟩
    · rintro ⟨a, w, s, e, v, hl', -⟩
      rw [hl] at hl'
      cases hl'
    · rw [hleft, Nat.sub_self]
  | unfit hl hf =>
    have hleft : fr.fuelLeft p = fr.call.fuel.toNat := by
      simp only [fuelLeft, sandboxLeft?, hl, hf]
    refine ⟨Nat.le_of_eq hleft, .inr ⟨?_, ?_⟩⟩
    · rintro ⟨a, w, s, e, v, hl', hf', -⟩
      rw [hl] at hl'
      cases hl'
      rw [hf] at hf'
      cases hf'
    · rw [hleft, Nat.sub_self]
  | @unstarted a w s e w' hl hf hb =>
    have hleft : fr.fuelLeft p =
        (s.afterStart { w with nextSandbox := w.nextSandbox + 1 }).remainingFuel := by
      simp only [fuelLeft, sandboxLeft?, session?, hl, hf, hb]
    have hspends := (failed_start_spends hl hf hb).remaining
    rw [Meter.remaining_new] at hspends
    rw [hleft]
    exact ⟨hspends, .inl ⟨⟨a, w, s, e, w', hl, hf, hb⟩, rfl⟩⟩
  | @served a w s s' w' ss r hl hf hb hs _ hr =>
    have hleft : fr.fuelLeft p =
        (ss.sandbox.invoke fr.call.function fr.call.payload ss.world).2.1.remainingFuel := by
      simp only [fuelLeft, sandboxLeft?, hl, hf, hs]
    have hspends := invoke_spends hs
    have hbound := hspends.remaining
    rw [Meter.remaining_new] at hbound
    subst hr
    rw [hleft]
    refine ⟨hbound, .inr ⟨?_, hspends.consumed⟩⟩
    rintro ⟨a', u, t, e, v, hl', hf', hb'⟩
    rw [hl] at hl'
    cases hl'
    rw [hf] at hf'
    cases hf'
    rw [hb] at hb'
    cases hb'

def BurnsUnpaid (p : Platform) (fr : Frame) : Prop :=
  fr.FailsToStart p ∧ fr.fuelLeft p < fr.call.fuel.toNat

theorem reports_lost_iff (p : Platform) (fr : Frame) :
    (p.run fr).1.fuelUsed = fr.call.fuel.toNat - fr.fuelLeft p ↔ ¬fr.BurnsUnpaid p := by
  obtain ⟨hle, ⟨hfails, hnone⟩ | ⟨hstarts, hlost⟩⟩ := fr.reports p
  · rw [hnone]
    constructor
    · rintro h ⟨-, hlt⟩
      omega
    · intro h
      have hge := Nat.not_lt.mp fun hlt => h ⟨hfails, hlt⟩
      omega
  · exact ⟨fun _ h => hstarts h.1, fun _ => hlost⟩

end Frame

/-- A frame reports the fuel that its sandbox has lost, and a nested call costs its caller as much,
exactly where no start function has burned some and failed. -/
theorem Platform.pays_iff (p : Platform) :
    (∀ fr : Frame, fr.FailsToStart p → (p.run fr).1.fuelUsed = 0) ∧
    (∀ fr : Frame, (p.run fr).1.fuelUsed = fr.call.fuel.toNat - fr.fuelLeft p ↔
      ¬fr.BurnsUnpaid p) ∧
    ∀ (fr : Frame) (h : HostCall) (fr' : Frame), fr.Makes p h fr' →
      (h.run.2.guest.meter.remaining + (fr'.call.fuel.toNat - fr'.fuelLeft p) =
        h.scene.guest.meter.remaining ↔ ¬fr'.BurnsUnpaid p) := by
  refine ⟨fun fr hfails => ?_, fun fr => fr.reports_lost_iff p, fun fr h fr' hm => ?_⟩
  · obtain ⟨-, ⟨-, hnone⟩ | ⟨hstarts, -⟩⟩ := fr.reports p
    · exact hnone
    · exact absurd hfails hstarts
  · have hcost := hm.cost
    rw [← fr'.reports_lost_iff p]
    omega

def Wasm.Module.burner : Wasm.Module where
  functions := #[⟨⟨[], []⟩, [], [.const .i32 0, .drop, .unreachable]⟩, ⟨⟨[.i32], []⟩, [], []⟩]
  exports := [⟨"", .function, 1⟩]
  start := some 0

set_option maxRecDepth 4000 in
theorem Platform.burner_reports_nothing :
    let p : Platform := ⟨{}, none, {}⟩
    let fr := p.root none { fuel := 100 } (.hosting .burner)
    (p.run fr).1.fuelUsed = 0 ∧ fr.call.fuel.toNat - fr.fuelLeft p = 2 := by
  decide +kernel

end MeteredContracts
