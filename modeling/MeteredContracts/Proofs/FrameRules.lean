import MeteredContracts.Proofs.CallTree
import MeteredContracts.Proofs.FreshSandboxes

/-!
What a frame does to the world. Around its guest a frame only notes events, lets time go by, and
puts requests to the ledger in the name of the call that is registered; all else is done by the
frames that it nests.
-/

namespace MeteredContracts

open Wasm (Cell)

/-- What a relation has to allow, for host functions to keep it that make no nested calls. -/
structure World.Allows (R : World → World → Prop) : Prop where
  refl : ∀ w, R w w
  trans : ∀ {u v w}, R u v → R v w → R u w
  note : ∀ w e, R w (w.note e)
  clock : ∀ w clock, R w { w with clock }
  ask : ∀ w id call r, Registry.lookup w.registry id = .ok call → r.MadeBy call.contract →
    R w (w.ask r).2

namespace World.Allows

variable {R : World → World → Prop} (hR : World.Allows R)

include hR

theorem follows : Turn.Follows fun s t => R s.world t.world where
  guest h := by
    obtain ⟨clock, hw⟩ := h.world
    rw [hw]
    exact hR.clock _ clock
  trans := hR.trans

theorem caller (c : Caller) : c.Allows fun s t => R s.world t.world where
  refl s := hR.refl s.world
  trans := hR.trans
  note s e := hR.note s.world e
  ask s call r hl hm := hR.ask s.world c.sandbox call r hl hm
  overwrite s _ _ := hR.refl s.world
  record s _ := hR.refl s.world

theorem transfer {o : Commission} {w : World} {id : Nat}
    (hl : Registry.lookup w.registry id = .ok o.sponsor) : R w (o.transfer w).2 := by
  have ha := hR.ask w id o.sponsor
    (.transferBalance o.sponsor.contract o.target (.ofNat o.value)) hl rfl
  unfold Commission.transfer
  split
  · exact hR.refl w
  · split
    next h =>
      rw [h] at ha
      exact ha
    next h =>
      rw [h] at ha
      exact ha

theorem hostCall {h : HostCall} (hf : h.function ∈ HostFunction.standard)
    (made : ∀ o w, h.function = .callContract → h.commission = .ok o →
      o.fuel ≤ h.scene.guest.meter.remaining → o.transfer h.scene.world = (true, w) →
      R w (o.delegate.perform o.call w).2) : R h.scene.world h.run.2.world := by
  apply (hR.caller h.caller).run hf h.args h.scene
  intro hc
  show R h.scene.world h.run.2.world
  rw [h.run_callContract hc]
  cases ho : h.commission with
  | error e => exact hR.refl _
  | ok o =>
    dsimp only
    rw [o.carryOut_apply]
    split
    · exact hR.refl _
    next hfuel =>
      have hl := (h.caller.commission_fst_eq_ok ho).1
      have hsend := hR.transfer hl
      show R h.scene.world (o.outcome h.scene.world).2
      unfold Commission.outcome
      rcases ht : o.transfer h.scene.world with ⟨_ | _, w⟩
      · rwa [ht] at hsend
      · rw [ht] at hsend
        exact hR.trans hsend (made o w hc ho (Nat.not_lt.mp hfuel) ht)

end World.Allows

namespace Sandbox

theorem runStart_ok {s s' : Sandbox} {w w' : World} (h : s.runStart w = (.ok s', w')) :
    s'.box = s.box ∧ s'.delegate = s.delegate := by
  unfold runStart at h
  split at h
  · cases h
    exact ⟨rfl, rfl⟩
  next function _ =>
    have hb := s.run_box function [] w
    split at h
    next hr =>
      cases h
      rwa [hr] at hb
    · cases h

theorem runStart_keeps {R : World → World → Prop} {s : Sandbox} {w : World}
    (hR : Turn.Follows fun s t => R s.world t.world)
    (host : ∀ function h, s.box.module.start = some function → s.Calls function [] w h →
      R h.scene.world h.run.2.world) : R w (s.runStart w).2 := by
  unfold runStart
  split
  · exact hR.refl (s.scene w)
  next function hm =>
    have hrun := run_keeps hR fun h hh => host function h hm hh
    split
    next hr =>
      rw [hr] at hrun
      exact hrun
    next hr =>
      rw [hr] at hrun
      exact hrun

theorem placePayload_box (s : Sandbox) (payload : Bytes) (w : World) :
    (s.placePayload payload w).2.1.box = s.box ∧
      (s.placePayload payload w).2.1.delegate = s.delegate := by
  cases ha : s.allocator? payload with
  | none =>
    obtain ⟨e, he⟩ := s.placePayload_of_none payload w ha
    rw [he]
    exact ⟨rfl, rfl⟩
  | some index =>
    have hb := s.run_box index [.ofNat payload.length] w
    obtain ⟨f, -, he⟩ | ⟨results, -, reason, he⟩ | ⟨results, -, place, bytes, he⟩ :=
      s.placePayload_of_some payload w ha
    · rwa [he]
    · rwa [he]
    · rwa [he]

theorem placed_box {s s' : Sandbox} {payload : Bytes} {w w' : World} {r : Except CallError Nat}
    (hp : s.placePayload payload w = (r, s', w')) :
    s'.box = s.box ∧ s'.delegate = s.delegate := by
  have hbox := s.placePayload_box payload w
  rwa [hp] at hbox

theorem invoke_box (s : Sandbox) (function : String) (payload : Bytes) (w : World) :
    (s.invoke function payload w).2.1.box = s.box ∧
      (s.invoke function payload w).2.1.delegate = s.delegate := by
  have hplace := s.placePayload_box payload w
  rw [invoke_eq]
  rcases hp : s.placePayload payload w with ⟨_ | place, s', w'⟩
  · rwa [hp] at hplace
  · rw [hp] at hplace
    dsimp only at hplace ⊢
    cases s'.entry? function with
    | none => exact hplace
    | some index =>
      have hrun := s'.run_box index [.ofNat place] w'
      rw [hplace.1, hplace.2] at hrun
      dsimp only
      rcases hr : s'.run index [.ofNat place] w' with ⟨_ | _, s'', w''⟩
      · rwa [hr] at hrun
      · rw [hr] at hrun
        exact hrun

theorem CallsInvoked.caller {s : Sandbox} {function : String} {payload : Bytes} {w : World}
    {h : HostCall} (hh : s.CallsInvoked function payload w h) :
    h.caller.sandbox = s.id ∧ h.caller.delegate = s.delegate ∧ h.function ∈ s.box.links := by
  cases hh with
  | placing ha hh => exact hh.caller
  | serving hp he hh =>
    obtain ⟨hbox, hd⟩ := placed_box hp
    obtain ⟨hid, hdelegate, hlinks⟩ := hh.caller
    rw [hbox] at hlinks
    rw [hd] at hdelegate
    exact ⟨hid.trans (congrArg Box.id hbox), hdelegate, hlinks⟩

end Sandbox

namespace Session

theorem finish_eq (ss : Session) (call : Call) :
    let r := ss.sandbox.invoke call.function call.payload ss.world
    ss.finish call = (⟨r.1, r.2.1.consumedFuel⟩,
      { r.2.2 with
        registry := Registry.release r.2.2.registry ss.sandbox.id
        statistics := r.2.2.statistics.record r.2.1.consumedFuel 0 ss.cacheHit }) := by
  have hid : (ss.sandbox.invoke call.function call.payload ss.world).2.1.id = ss.sandbox.id :=
    congrArg Box.id (ss.sandbox.invoke_box call.function call.payload ss.world).1
  dsimp only
  rw [← hid]
  rfl

end Session

namespace Frame

variable {p : Platform} {fr : Frame} {ss : Session} {h : HostCall}

theorem session?_eq_some (hs : fr.session? p = some ss) :
    ∃ a w s s' w', fr.loaded p = (.ok a, w) ∧ fr.fresh p a w = .ok s ∧
      started s w = (.ok s', w') ∧
      ss = .begin fr.call a.cacheHit { s' with delegate := some (p.delegate fr.levels) } w' := by
  unfold session? at hs
  rcases hl : fr.loaded p with ⟨e | a, w⟩
  · rw [hl] at hs
    cases hs
  · simp only [hl] at hs
    cases hf : fr.fresh p a w with
    | error e =>
      rw [hf] at hs
      cases hs
    | ok s =>
      simp only [hf] at hs
      rcases hb : started s w with ⟨e | s', w'⟩
      · rw [hb] at hs
        cases hs
      · rw [hb] at hs
        cases hs
        exact ⟨a, w, s, s', w', rfl, hf, hb, rfl⟩

theorem fresh_sandbox {a : Loaded} {w : World} {s : Sandbox} (hf : fr.fresh p a w = .ok s) :
    s.Fresh HostFunction.standard w.nextSandbox a.artifact.module fr.call.fuel :=
  Sandbox.fresh_of_prepare hf

theorem started_sandbox {s s' : Sandbox} {w w' : World} (hb : started s w = (.ok s', w')) :
    s'.box = s.box ∧ s'.delegate = s.delegate := Sandbox.runStart_ok hb

theorem session_box (hs : fr.session? p = some ss) :
    ss.sandbox.delegate = some (p.delegate fr.levels) ∧
      ∀ f ∈ ss.sandbox.box.links, f ∈ HostFunction.standard := by
  obtain ⟨a, w, s, s', w', -, hf, hb, rfl⟩ := session?_eq_some hs
  refine ⟨rfl, fun f hm => (fresh_sandbox hf).links f ?_⟩
  rw [← (started_sandbox hb).1]
  exact hm

theorem run_of_session (hs : fr.session? p = some ss) : p.run fr = ss.finish fr.call := by
  have hc := p.course fr
  generalize p.run fr = r at hc ⊢
  cases hc with
  | unloaded hl => simp only [session?, hl, reduceCtorEq] at hs
  | unfit hl hf => simp only [session?, hl, hf, reduceCtorEq] at hs
  | unstarted hl hf hb => simp only [session?, hl, hf, hb, reduceCtorEq] at hs
  | served _ _ _ hs' _ hr =>
    rw [hs] at hs'
    cases hs'
    subst hr
    rfl

def links? (p : Platform) (fr : Frame) : Option (List HostFunction) :=
  (fr.loaded p).1.toOption.bind fun a =>
    (link HostFunction.standard a.artifact.module.imports).toOption

theorem session_links (hs : fr.session? p = some ss) :
    fr.links? p = some ss.sandbox.box.links.toList := by
  obtain ⟨a, w, s, s', w', hl, hf, hb, rfl⟩ := session?_eq_some hs
  obtain ⟨links, program, memory, deadline, hlink, -, rfl⟩ := Sandbox.prepare_eq_ok hf
  have hbox : s'.box.links = links.toArray := congrArg Box.links (started_sandbox hb).1
  show _ = some s'.box.links.toList
  rw [hbox, links?, hl]
  show (link HostFunction.standard a.artifact.module.imports).toOption = _
  rw [hlink]
  rfl

theorem Serves.caller (hh : fr.Serves p h) :
    h.caller.delegate = some (p.delegate fr.levels) ∧ h.function ∈ HostFunction.standard := by
  obtain ⟨ss, hs, hh⟩ := hh
  obtain ⟨-, hd, hl⟩ := hh.caller
  exact ⟨hd.trans (session_box hs).1, (session_box hs).2 _ hl⟩

theorem Starts.caller (hh : fr.Starts p h) :
    h.caller.delegate = none ∧ h.function ∈ HostFunction.standard := by
  obtain ⟨a, w, s, function, -, hf, -, hh⟩ := hh
  obtain ⟨-, hd, hl⟩ := hh.caller
  exact ⟨hd.trans (fresh_sandbox hf).delegate, (fresh_sandbox hf).links _ hl⟩

theorem commission_starts (hh : fr.Starts p h) (o : Commission) : h.commission ≠ .ok o := by
  intro ho
  have hd := (h.caller.commission_fst_eq_ok ho).2.1
  rw [hh.caller.1] at hd
  cases hd

theorem Serves.perform_eq {levels : Nat} {o : Commission} (hh : fr.Serves p h)
    (hl : fr.levels = levels + 1) (ho : h.commission = .ok o) (w : World) :
    o.delegate.perform o.call w = p.run ⟨levels, none, o.call, w⟩ := by
  have hd := (h.caller.commission_fst_eq_ok ho).2.1
  rw [← Option.some.inj (hh.caller.1.symm.trans hd), hl]
  rfl

theorem Makes.serves {fr' : Frame} (hm : fr.Makes p h fr') :
    fr.Serves p h ∧ h.function = .callContract := by
  cases hm with
  | intro _ hh hf => exact ⟨hh, hf⟩

theorem Makes.unique {fr' fr'' : Frame} (hm : fr.Makes p h fr') (hm' : fr.Makes p h fr'') :
    fr' = fr'' := by
  cases hm with
  | intro hl _ _ ho _ ht =>
    cases hm' with
    | intro hl' _ _ ho' _ ht' =>
      cases Except.ok.inj (ho.symm.trans ho')
      cases Nat.succ.inj (hl.symm.trans hl')
      cases (Prod.mk.inj (ht.symm.trans ht')).2
      rfl

theorem Makes.run_eq {fr' : Frame} (hm : fr.Makes p h fr') :
    h.run.1 = .ok (Commission.reply (some (p.run fr').1)) ∧ h.run.2.world = (p.run fr').2 := by
  cases hm with
  | @intro levels o w hl hh hf ho hfuel ht =>
    obtain ⟨hreply, -, hworld⟩ := h.run_of_covered hf ho hfuel
    rw [Commission.outcome, ht] at hreply hworld
    rw [← hh.perform_eq hl ho]
    exact ⟨hreply, hworld⟩

end Frame

/-- To execute a call is to run its root frame, to run a frame is to take its course, and a host
function that makes a frame runs it. -/
structure Platform.RunsFrames (p : Platform) : Prop where
  execute (cancel : Cancellation) (call : Call) (w : World) :
    p.execute cancel call w = p.run (p.root cancel call w)
  run (fr : Frame) : p.Course fr (p.run fr)
  nested {fr fr' : Frame} {h : HostCall} : fr.Makes p h fr' →
    h.run.1 = .ok (Commission.reply (some (p.run fr').1)) ∧ h.run.2.world = (p.run fr').2

theorem Platform.runsFrames (p : Platform) : p.RunsFrames :=
  ⟨p.execute_eq_run, p.course, Frame.Makes.run_eq⟩

namespace Frame

variable {p : Platform} {fr : Frame} {ss : Session} {h : HostCall} {R : World → World → Prop}
  (hR : World.Allows R)

include hR

theorem Starts.run_keeps (hh : fr.Starts p h) : R h.scene.world h.run.2.world :=
  hR.hostCall hh.caller.2 fun o _ _ ho _ _ => absurd ho (commission_starts hh o)

theorem Makes.sends {fr' : Frame} (hm : fr.Makes p h fr') : R h.scene.world fr'.world := by
  cases hm with
  | intro _ hh _ ho _ ht =>
    have hsend := hR.transfer (h.caller.commission_fst_eq_ok ho).1
    rwa [ht] at hsend

theorem Serves.run_keeps (hh : fr.Serves p h)
    (made : ∀ fr', fr.Makes p h fr' → R fr'.world (p.run fr').2) :
    R h.scene.world h.run.2.world := by
  apply hR.hostCall hh.caller.2
  intro o w hc ho hfuel ht
  cases hl : fr.levels with
  | zero =>
    have hd := (h.caller.commission_fst_eq_ok ho).2.1
    rw [← Option.some.inj (hh.caller.1.symm.trans hd), hl]
    exact hR.refl w
  | succ levels =>
    rw [hh.perform_eq hl ho]
    exact made _ (.intro hl hh hc ho hfuel ht)

theorem started_keeps {a : Loaded} {w : World} {s : Sandbox} (hl : fr.loaded p = (.ok a, w))
    (hf : fr.fresh p a w = .ok s) :
    R { w with nextSandbox := w.nextSandbox + 1 } (started s w).2 :=
  Sandbox.runStart_keeps hR.follows fun function _ hm hh =>
    Starts.run_keeps hR ⟨a, w, s, function, hl, hf, hm, hh⟩

theorem session_begins (hs : fr.session? p = some ss) :
    ∃ a u v, fr.loaded p = (.ok a, u) ∧ R { u with nextSandbox := u.nextSandbox + 1 } v ∧
      ss.sandbox.id = u.nextSandbox ∧
      ss.world = { v with
        registry := Registry.register v.registry u.nextSandbox (ss.entry fr.call).2 } := by
  obtain ⟨a, u, s, s', v, hl, hf, hb, rfl⟩ := session?_eq_some hs
  have hstart := started_keeps hR hl hf
  rw [hb] at hstart
  have hid : s'.id = u.nextSandbox := by
    rw [← (fresh_sandbox hf).id]
    exact congrArg Box.id (started_sandbox hb).1
  refine ⟨a, u, v, hl, hstart, hid, ?_⟩
  rw [← hid]
  rfl

theorem session_keeps (hs : fr.session? p = some ss)
    (nested : ∀ fr', fr.Nests p fr' → R fr'.world (p.run fr').2) :
    R ss.world (ss.sandbox.invoke fr.call.function fr.call.payload ss.world).2.2 :=
  Sandbox.invoke_keeps hR.follows (fun h hh => Serves.run_keeps hR ⟨ss, hs, hh⟩
    fun fr' hm => nested fr' ⟨h, hm⟩) fun _ => hR.refl _

theorem serves_keeps (hs : fr.session? p = some ss)
    (hh : ss.sandbox.CallsInvoked fr.call.function fr.call.payload ss.world h)
    (nested : ∀ fr', fr.Nests p fr' → R fr'.world (p.run fr').2) : R ss.world h.scene.world :=
  hh.keeps hR.follows fun h hh => Serves.run_keeps hR ⟨ss, hs, hh⟩
    fun fr' hm => nested fr' ⟨h, hm⟩

omit hR

end Frame

/-- What a relation has to allow besides, for frames to keep it that load their artifact and serve
calls of some kind. -/
structure World.AllowsCalls (Q : Call → Prop) (R : World → World → Prop) : Prop
    extends World.Allows R where
  name : ∀ w, R w { w with nextSandbox := w.nextSandbox + 1 }
  serve : ∀ {u v w : World} {call : Call} {fuel : Nat} {cacheHit : Bool}, Q call →
    R { u with nextSandbox := u.nextSandbox + 1 } v →
    R { v with registry := Registry.register v.registry u.nextSandbox call } w →
    R u { w with
      registry := Registry.release w.registry u.nextSandbox
      statistics := w.statistics.record fuel 0 cacheHit }

namespace World.AllowsCalls

variable {Q : Call → Prop} {R : World → World → Prop} (hR : World.AllowsCalls Q R) {p : Platform}

include hR

theorem run {fr : Frame} (call : ∀ ss, fr.session? p = some ss → Q (ss.entry fr.call).2)
    (load : R fr.world (fr.loaded p).2)
    (nested : ∀ fr', fr.Nests p fr' → R fr'.world (p.run fr').2) : R fr.world (p.run fr).2 := by
  have hc := p.course fr
  generalize p.run fr = r at hc ⊢
  cases hc with
  | unloaded hl =>
    rw [hl] at load
    exact load
  | unfit hl hf =>
    rw [hl] at load
    exact hR.trans load (hR.name _)
  | unstarted hl hf hb =>
    rw [hl] at load
    have hstart := Frame.started_keeps hR.toAllows hl hf
    rw [hb] at hstart
    exact hR.trans load (hR.trans (hR.name _) hstart)
  | @served a w s s' w' ss r hl hf hb hs _ hr =>
    obtain ⟨a, u, v, hl, hstart, hid, hworld⟩ := Frame.session_begins hR.toAllows hs
    have hinvoke := Frame.session_keeps hR.toAllows hs nested
    have hsame : r.2.1.id = u.nextSandbox := by
      rw [← hr, ← hid]
      exact congrArg Box.id (ss.sandbox.invoke_box fr.call.function fr.call.payload ss.world).1
    rw [hl] at load
    rw [hr, hworld] at hinvoke
    rw [hsame]
    exact hR.trans load (hR.serve (call ss hs) hstart hinvoke)

theorem run_where {P : Frame → Prop} (nests : ∀ {fr fr'}, P fr → fr.Nests p fr' → P fr')
    (call : ∀ {fr ss}, P fr → fr.session? p = some ss → Q (ss.entry fr.call).2)
    (load : ∀ fr, P fr → R fr.world (fr.loaded p).2) (fr : Frame) (hP : P fr) :
    R fr.world (p.run fr).2 := by
  induction fr using Frame.of_nested (p := p) with
  | step fr ih =>
    exact hR.run (fun _ => call hP) (load fr hP) fun fr' hn => ih fr' hn (nests hP hn)

end World.AllowsCalls

abbrev World.AllowsFrames (R : World → World → Prop) : Prop := World.AllowsCalls (fun _ => True) R

namespace World.AllowsFrames

variable {R : World → World → Prop} (hR : World.AllowsFrames R) {p : Platform}

include hR

theorem run_where {P : Frame → Prop} (nests : ∀ {fr fr'}, P fr → fr.Nests p fr' → P fr')
    (load : ∀ fr, P fr → R fr.world (fr.loaded p).2) (fr : Frame) (hP : P fr) :
    R fr.world (p.run fr).2 :=
  World.AllowsCalls.run_where hR nests (fun _ _ => trivial) load fr hP

theorem run_all (load : ∀ fr : Frame, R fr.world (fr.loaded p).2) (fr : Frame) :
    R fr.world (p.run fr).2 :=
  hR.run_where (fun _ _ => trivial) (fun fr _ => load fr) fr trivial

end World.AllowsFrames

end MeteredContracts
