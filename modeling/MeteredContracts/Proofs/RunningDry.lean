import MeteredContracts.Proofs.PreExecution

namespace MeteredContracts

open Wasm (Trap)

namespace Frame

def ServesDry (p : Platform) (fr : Frame) : Prop :=
  ∃ ss, fr.session? p = some ss ∧
    ss.sandbox.RunsDryInvoked fr.call.function fr.call.payload ss.world

def StartsDry (p : Platform) (fr : Frame) : Prop :=
  ∃ a w s function, fr.loaded p = (.ok a, w) ∧ fr.fresh p a w = .ok s ∧
    s.box.module.start = some function ∧
    s.RunsDry function [] { w with nextSandbox := w.nextSandbox + 1 }

variable {p : Platform} {fr : Frame}

theorem run_of_unstarted {a : Loaded} {w w' : World} {s : Sandbox} {e : CallError}
    (hl : fr.loaded p = (.ok a, w)) (hf : fr.fresh p a w = .ok s)
    (hb : started s w = (.error e, w')) : p.run fr = (⟨.error e, 0⟩, w') := by
  unfold Platform.run Platform.perform Sandbox.instantiate
  rw [show p.prepare fr.cancel fr.call fr.world = _ from hl]
  dsimp only
  rw [show Sandbox.prepare _ _ _ _ _ _ _ _ = _ from hf]
  dsimp only
  rw [show s.runStart _ = _ from hb]

theorem run_of_startsDry (h : fr.StartsDry p) :
    (p.run fr).1.output = .error (.instantiation backtrace) := by
  obtain ⟨a, w, s, function, hl, hf, hm, hruns⟩ := h
  obtain ⟨f, hr, -⟩ := Sandbox.run_of_runsDry hruns
  rcases hb : started s w with ⟨e | s', w'⟩
  · rw [run_of_unstarted hl hf hb, Sandbox.runStart_eq_error hb]
  · unfold started Sandbox.runStart at hb
    simp only [hm] at hb
    split at hb
    next hok =>
      rw [hok] at hr
      cases hr
    next => cases hb

theorem output_eq_fuelExhausted :
    (p.run fr).1.output = .error .fuelExhausted ↔ fr.ServesDry p := by
  cases hs : fr.session? p with
  | some ss =>
    have hinvoke := Sandbox.invoke_eq_fuelExhausted (session_box hs).2 fr.call.function
      fr.call.payload ss.world
    rw [run_of_session hs, Session.finish_eq]
    simp only [hinvoke, ServesDry, hs, Option.some.injEq, exists_eq_left']
  | none =>
    have hnot : ¬fr.ServesDry p := by simp [ServesDry, hs]
    refine iff_of_false (fun h => ?_) hnot
    obtain ⟨-, htells, -⟩ | ⟨-, ⟨reason, hreason⟩, -⟩ | ⟨hsome, -⟩ := run_eq_error h
    · cases htells
    · cases hreason
    · simp [hs] at hsome

def startTrap? (p : Platform) (fr : Frame) : Option Trap :=
  match fr.loaded p with
  | (.error _, _) => none
  | (.ok a, w) => (fr.fresh p a w).toOption.bind fun s => s.box.module.start.bind fun function =>
    let w := { w with nextSandbox := w.nextSandbox + 1 }
    if 0 < s.box.ceiling then
      match (Turn.pause s.box (s.box.start s.guest w 0 function [])).2 with
      | .trapped t => some t
      | _ => none
    else none

theorem startsDry_of_startTrap? (h : fr.startTrap? p = some .outOfFuel) : fr.StartsDry p := by
  unfold startTrap? at h
  split at h
  · cases h
  next a w hl =>
    cases hf : fr.fresh p a w with
    | error e =>
      rw [hf] at h
      cases h
    | ok s =>
      rw [hf] at h
      change (s.box.module.start.bind _) = _ at h
      obtain ⟨function, hm, htrap⟩ := Option.bind_eq_some_iff.mp h
      obtain ⟨hceiling, htrap⟩ := Option.ite_none_right_eq_some.mp htrap
      split at htrap
      next hpause =>
        cases htrap
        exact ⟨a, w, s, function, hl, hf, hm, 0, hceiling, .inl hpause⟩
      next => cases htrap

end Frame

/-- A call reports that it is out of fuel exactly if fuel was wanting while it was served: while the
guest looked for a place for the payload, or in the function that was called, or for the result or
the budget of a nested call. Of a start function it is only said that there is no sandbox. -/
theorem Platform.reports_want_of_fuel (p : Platform) :
    (∀ fr : Frame, (p.run fr).1.output = .error .fuelExhausted ↔ fr.ServesDry p) ∧
    ∀ fr : Frame, fr.StartsDry p →
      (p.run fr).1.output = .error (.instantiation backtrace) :=
  ⟨fun _ => Frame.output_eq_fuelExhausted, fun _ => Frame.run_of_startsDry⟩

def Wasm.Module.idler : Wasm.Module where
  functions := #[⟨⟨[], []⟩, [], [.loop ⟨[], []⟩ [.br 0]]⟩, ⟨⟨[.i32], []⟩, [], []⟩]
  exports := [⟨"", .function, 1⟩]
  start := some 0

set_option maxRecDepth 4000 in
theorem Platform.idler_reports_something_else :
    let p : Platform := ⟨{}, none, {}⟩
    let fr := p.root none { fuel := 100 } (.hosting .idler)
    fr.StartsDry p ∧ (p.run fr).1.output = .error (.instantiation backtrace) ∧
      (p.run fr).1.output ≠ .error .fuelExhausted := by
  intro p fr
  have hrun : (fr.startTrap? p, (p.run fr).1.output) =
      (some .outOfFuel, .error (.instantiation backtrace)) := by
    decide +kernel
  obtain ⟨htrap, houtput⟩ := Prod.mk.inj hrun
  refine ⟨Frame.startsDry_of_startTrap? htrap, houtput, ?_⟩
  rw [houtput]
  simp

end MeteredContracts
