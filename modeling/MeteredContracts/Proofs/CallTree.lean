import MeteredContracts.Platform
import MeteredContracts.Proofs.Commission
import MeteredContracts.Proofs.Invocations

/-!
Trees of calls. A frame is a call together with the world that it finds; the frames that it nests
are the commissions that its guest has carried out. What holds of a frame wherever it holds of the
frames nested in it holds of every frame.
-/

namespace MeteredContracts

open Wasm (Cell)

/-- A call as it is put to a platform. The calls that it makes may nest `levels` deep. -/
structure Frame where
  levels : Nat
  cancel : Cancellation
  call : Call
  world : World

def Session.entry (ss : Session) (call : Call) : Nat × Call :=
  (ss.sandbox.id, { call with sandbox := some ss.sandbox.id })

def HostCall.frame? (h : HostCall) (levels : Nat) : Option Frame :=
  match levels, h.commission with
  | levels + 1, .ok o =>
    if h.function = .callContract ∧ o.fuel ≤ h.scene.guest.meter.remaining ∧
        (o.transfer h.scene.world).1 then
      some ⟨levels, none, o.call, (o.transfer h.scene.world).2⟩
    else none
  | _, _ => none

namespace Frame

variable (p : Platform) (fr : Frame)

def loaded : Except CallError Loaded × World := p.prepare fr.cancel fr.call fr.world

def fresh (a : Loaded) (w : World) : Except CallError Sandbox :=
  Sandbox.prepare HostFunction.standard p.config.engine p.config.execution w.nextSandbox
    a.artifact.module fr.call.fuel { w with nextSandbox := w.nextSandbox + 1 } p.engine

def started (s : Sandbox) (w : World) : Except CallError Sandbox × World :=
  s.runStart { w with nextSandbox := w.nextSandbox + 1 }

def session? : Option Session :=
  match fr.loaded p with
  | (.error _, _) => none
  | (.ok a, w) =>
    match fr.fresh p a w with
    | .error _ => none
    | .ok s =>
      match started s w with
      | (.error _, _) => none
      | (.ok s, w) =>
        some (.begin fr.call a.cacheHit { s with delegate := some (p.delegate fr.levels) } w)

def Serves (h : HostCall) : Prop :=
  ∃ ss, fr.session? p = some ss ∧
    ss.sandbox.CallsInvoked fr.call.function fr.call.payload ss.world h

def Starts (h : HostCall) : Prop :=
  ∃ a w s function, fr.loaded p = (.ok a, w) ∧ fr.fresh p a w = .ok s ∧
    s.box.module.start = some function ∧
    s.Calls function [] { w with nextSandbox := w.nextSandbox + 1 } h

/-- The frame of the nested call that a host function makes, once its budget is debited and its
value sent. -/
inductive Makes (h : HostCall) : Frame → Prop
  | intro {levels : Nat} {o : Commission} {w : World} :
      fr.levels = levels + 1 → fr.Serves p h → h.function = .callContract →
      h.commission = .ok o → o.fuel ≤ h.scene.guest.meter.remaining →
      o.transfer h.scene.world = (true, w) → Makes h ⟨levels, none, o.call, w⟩

def Nests (fr' : Frame) : Prop := ∃ h, fr.Makes p h fr'

variable {p fr}

theorem makes_iff {h : HostCall} {fr' : Frame} :
    fr.Makes p h fr' ↔ fr.Serves p h ∧ h.frame? fr.levels = some fr' := by
  constructor
  · intro hm
    cases hm with
    | intro hl hh hf ho hfuel ht =>
      refine ⟨hh, ?_⟩
      simp only [HostCall.frame?, hl, ho, hf, hfuel, ht, and_self, if_true]
  · rintro ⟨hh, hfr⟩
    unfold HostCall.frame? at hfr
    split at hfr
    next levels o hl ho =>
      obtain ⟨⟨hf, hfuel, ht⟩, hfr⟩ := Option.ite_none_right_eq_some.mp hfr
      cases hfr
      exact .intro hl hh hf ho hfuel (Prod.ext ht rfl)
    next => cases hfr

theorem of_nested {P : Frame → Prop}
    (step : ∀ fr : Frame, (∀ fr', fr.Nests p fr' → P fr') → P fr) (fr : Frame) : P fr := by
  -- a nested frame has one level less below it than the frame around it
  induction hl : fr.levels generalizing fr with
  | zero =>
    refine step fr fun fr' hn => ?_
    obtain ⟨h, hm⟩ := hn
    cases hm with
    | intro hl' => omega
  | succ levels ih =>
    refine step fr fun fr' hn => ?_
    obtain ⟨h, hm⟩ := hn
    cases hm with
    | intro hl' => exact ih _ (by simp only; omega)

end Frame

namespace Session

def firstCall? (ss : Session) (call : Call) : Option HostCall :=
  (ss.sandbox.allocator? call.payload).bind fun index =>
    if 0 < ss.sandbox.box.ceiling then
      Turn.hostCall? ss.sandbox.box ss.sandbox.delegate
        (ss.sandbox.firstTurn index [.ofNat call.payload.length] ss.world)
    else none

theorem callsInvoked_of_firstCall? {ss : Session} {call : Call} {h : HostCall}
    (hh : ss.firstCall? call = some h) :
    ss.sandbox.CallsInvoked call.function call.payload ss.world h := by
  obtain ⟨index, hindex, hh⟩ := Option.bind_eq_some_iff.mp hh
  obtain ⟨hceiling, hh⟩ := Option.ite_none_right_eq_some.mp hh
  exact .placing hindex ⟨0, hceiling, hh⟩

end Session

namespace Frame

def firstNested? (p : Platform) (fr : Frame) : Option Frame :=
  (fr.session? p).bind fun ss => (ss.firstCall? fr.call).bind fun h => h.frame? fr.levels

theorem nests_of_firstNested? {p : Platform} {fr fr' : Frame} (h : fr.firstNested? p = some fr') :
    fr.Nests p fr' := by
  obtain ⟨ss, hs, h⟩ := Option.bind_eq_some_iff.mp h
  obtain ⟨h', hh, hfr⟩ := Option.bind_eq_some_iff.mp h
  exact ⟨h', makes_iff.mpr ⟨⟨ss, hs, ss.callsInvoked_of_firstCall? hh⟩, hfr⟩⟩

end Frame

def World.hosting (m : Wasm.Module) : World where
  service := { ledger := { accounts := Table.empty.insert .zero ⟨[]⟩ } }
  cache := .unbounded (Table.empty.insert ⟨[]⟩ ⟨m, "", 0⟩)

def Address.second : Address := ⟨1 :: List.replicate 32 0, rfl⟩

/-- A module that calls the second account before anything else, and sends it some money. -/
def Wasm.Module.patron : Wasm.Module where
  imports := [⟨"contract", "call_contract", .function HostFunction.callContract.type⟩]
  functions := #[⟨⟨[.i32], [.i32]⟩, [], [.const .i32 0, .const .i32 0, .const .i32 0, .const .i32 0,
    .const .i32 2, .const .i64 7, .const .i64 5, .call 0, .drop, .const .i32 0]⟩,
    ⟨⟨[.i32], []⟩, [], []⟩]
  memory := some ⟨1, none⟩
  exports := [⟨"memory", .memory, 0⟩, ⟨"alloc", .function, 1⟩, ⟨"", .function, 2⟩]
  data := [⟨.const .i32 0, [1]⟩]

def Wasm.Module.listener : Wasm.Module where
  functions := #[⟨⟨[.i32], [.i32]⟩, [], [.const .i32 0]⟩, ⟨⟨[.i32], []⟩, [], []⟩]
  memory := some ⟨1, none⟩
  exports := [⟨"memory", .memory, 0⟩, ⟨"alloc", .function, 0⟩, ⟨"", .function, 1⟩]

def World.patronage : World where
  service :=
    { ledger :=
      { accounts := (Table.empty.insert .zero ⟨[]⟩).insert .second ⟨[1]⟩
        balances := Table.empty.insert .zero 5 } }
  cache := .unbounded
    ((Table.empty.insert ⟨[]⟩ ⟨.patron, "", 0⟩).insert ⟨[1]⟩ ⟨.listener, "", 0⟩)

namespace Platform

variable (p : Platform)

def run (fr : Frame) : Outcome × World :=
  p.perform (p.delegate fr.levels) fr.cancel fr.call fr.world

def root (cancel : Cancellation) (call : Call) (w : World) : Frame :=
  ⟨p.config.execution.maxCallDepth.toNat - call.depth.toNat, cancel, call, w⟩

theorem execute_eq_run (cancel : Cancellation) (call : Call) (w : World) :
    p.execute cancel call w = p.run (p.root cancel call w) := rfl

/-- The four ways that a frame can take, and what each comes to. A frame that is served has its
call registered, its function invoked, its call released and its fuel recorded. -/
inductive Course (fr : Frame) : Outcome × World → Prop
  | unloaded {e : CallError} {w : World} :
      fr.loaded p = (.error e, w) → Course fr (⟨.error e, 0⟩, w)
  | unfit {a : Loaded} {w : World} {e : CallError} :
      fr.loaded p = (.ok a, w) → fr.fresh p a w = .error e →
      Course fr (⟨.error e, 0⟩, { w with nextSandbox := w.nextSandbox + 1 })
  | unstarted {a : Loaded} {w : World} {s : Sandbox} {e : CallError} {w' : World} :
      fr.loaded p = (.ok a, w) → fr.fresh p a w = .ok s →
      Frame.started s w = (.error e, w') → Course fr (⟨.error e, 0⟩, w')
  | served {a : Loaded} {w : World} {s s' : Sandbox} {w' : World} {ss : Session}
      {r : Except CallError Bytes × Sandbox × World} :
      fr.loaded p = (.ok a, w) → fr.fresh p a w = .ok s →
      Frame.started s w = (.ok s', w') → fr.session? p = some ss →
      ss = ⟨a.cacheHit, { s' with delegate := some (p.delegate fr.levels) }, { w' with
        registry :=
          Registry.register w'.registry s'.id { fr.call with sandbox := some s'.id } }⟩ →
      ss.sandbox.invoke fr.call.function fr.call.payload ss.world = r →
      Course fr (⟨r.1, r.2.1.consumedFuel⟩, { r.2.2 with
        registry := Registry.release r.2.2.registry r.2.1.id
        statistics := r.2.2.statistics.record r.2.1.consumedFuel 0 ss.cacheHit })

theorem course (fr : Frame) : p.Course fr (p.run fr) := by
  unfold run perform Sandbox.instantiate
  rcases hl : fr.loaded p with ⟨e | a, w⟩
  · rw [show p.prepare fr.cancel fr.call fr.world = _ from hl]
    exact .unloaded hl
  · rw [show p.prepare fr.cancel fr.call fr.world = _ from hl]
    dsimp only
    cases hf : fr.fresh p a w with
    | error e =>
      rw [show Sandbox.prepare _ _ _ _ _ _ _ _ = _ from hf]
      exact .unfit hl hf
    | ok s =>
      rw [show Sandbox.prepare _ _ _ _ _ _ _ _ = _ from hf]
      dsimp only
      rcases hs : Frame.started s w with ⟨e | s', w'⟩
      · rw [show s.runStart _ = _ from hs]
        exact .unstarted hl hf hs
      · rw [show s.runStart _ = _ from hs]
        have hsession : fr.session? p = some (.begin fr.call a.cacheHit
            { s' with delegate := some (p.delegate fr.levels) } w') := by
          simp only [Frame.session?, hl, hf, hs]
        exact .served hl hf hs hsession rfl rfl

end Platform

end MeteredContracts
