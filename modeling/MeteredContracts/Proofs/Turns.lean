import Mathlib.Logic.Function.Iterate
import MeteredContracts.Proofs.HostRules
import MeteredContracts.Proofs.Spending
import MeteredContracts.Sandbox.Basic

/-!
Runs turn by turn. Between two calls of host functions a guest can do little: it spends fuel, it
writes its own memory and globals, and time goes by. What host functions keep as well is kept by a
whole run, and holds wherever the run comes to a host function.
-/

namespace MeteredContracts

open Wasm (Cell Machine Pause Step)

structure HostCall where
  function : HostFunction
  caller : Caller
  args : List Cell
  scene : Scene

def HostCall.run (h : HostCall) : Except Failure Reply × Scene :=
  h.function.run h.caller h.args h.scene

/-- What a guest can do without its host. -/
structure Scene.GuestMoves (s t : Scene) : Prop where
  meter : s.guest.meter.Spends t.guest.meter
  result : t.result = s.result
  world : ∃ clock, t.world = { s.world with clock }

namespace Scene

theorem GuestMoves.refl (s : Scene) : s.GuestMoves s := ⟨.refl _, rfl, s.world.clock, rfl⟩

theorem GuestMoves.trans {s t u : Scene} (h : s.GuestMoves t) (h' : t.GuestMoves u) :
    s.GuestMoves u := by
  obtain ⟨clock, hw⟩ := h.world
  obtain ⟨clock', hw'⟩ := h'.world
  exact ⟨h.meter.trans h'.meter, h'.result.trans h.result, clock', by rw [hw', hw]⟩

theorem GuestMoves.of_state {s : Scene} {guest : Wasm.State}
    (h : s.guest.meter.Spends guest.meter) : s.GuestMoves { s with guest } :=
  ⟨h, rfl, s.world.clock, rfl⟩

theorem write_guestMoves (s : Scene) (c : Caller) (ptr : Int) (bs : Bytes) :
    s.GuestMoves (s.write c ptr bs).2 := by
  unfold write
  split
  · split
    · exact .refl s
    · split
      · exact .refl s
      · exact ⟨.refl _, rfl, s.world.clock, rfl⟩
  · exact .refl s

end Scene

namespace Turn

def scene : Turn → Scene
  | .step s _ result world => ⟨s.machine.state, result, world⟩
  | .ended _ scene => scene

def pause (b : Box) : Step → Machine × Pause
  | .next m => m.run b.program b.ceiling
  | .pause m why => (m, why)

def called? (b : Box) (delegate : Option Delegate) (m : Machine) (why : Pause)
    (result : Option Bytes) (world : World) : Option HostCall :=
  match why with
  | .call function args =>
    (b.links[function]?).map fun f =>
      ⟨f, ⟨b.id, b.module.exportsMemory && !m.callers.isEmpty, delegate⟩, args,
        ⟨m.state, result, world⟩⟩
  | _ => none

def hostCall? (b : Box) (delegate : Option Delegate) : Turn → Option HostCall
  | .step s _ result world =>
    called? b delegate (pause b s).1 (pause b s).2 result (b.settleClock (pause b s).1 world)
  | .ended .. => none

variable (b : Box) (delegate : Option Delegate)

theorem pause_spends (s : Step) : s.machine.state.meter.Spends (pause b s).1.state.meter := by
  cases s with
  | next m => exact (Machine.run_burns b.program m b.ceiling).spends
  | pause m why => exact .refl _

theorem advance_step (s : Step) (deliveries : List Delivery) (result : Option Bytes) (w : World) :
    advance b delegate (.step s deliveries result w) =
      react b delegate (pause b s).1 (pause b s).2 deliveries result w := by
  cases s <;> rfl

theorem pause_guestMoves (s : Step) (deliveries : List Delivery) (result : Option Bytes)
    (w : World) : (scene (.step s deliveries result w)).GuestMoves
      ⟨(pause b s).1.state, result, b.settleClock (pause b s).1 w⟩ :=
  ⟨pause_spends b s, rfl, _, rfl⟩

theorem start_guestMoves (s : Scene) (depth function : Nat) (args : List Cell) :
    s.GuestMoves ⟨(b.start s.guest s.world depth function args).machine.state, s.result, s.world⟩ :=
  .of_state (Meter.Burns.spends (Machine.call_burns b.program
    ⟨s.guest, ⟨_, #[], args.reverse, [], []⟩, [], depth, b.patience s.world⟩ function))

theorem called?_scene {m : Machine} {why : Pause} {result : Option Bytes} {w : World}
    {h : HostCall} (hc : called? b delegate m why result w = some h) :
    h.scene = ⟨m.state, result, w⟩ := by
  unfold called? at hc
  split at hc
  · obtain ⟨f, -, rfl⟩ := Option.map_eq_some_iff.mp hc
    rfl
  · cases hc

theorem hostCall?_guestMoves {t : Turn} {h : HostCall} (ht : hostCall? b delegate t = some h) :
    t.scene.GuestMoves h.scene := by
  cases t with
  | ended how scene => cases ht
  | step s deliveries result w =>
    have hm := pause_guestMoves b s deliveries result w
    rwa [← called?_scene b delegate ht] at hm

theorem called?_caller {m : Machine} {why : Pause} {result : Option Bytes} {w : World}
    {h : HostCall} (hc : called? b delegate m why result w = some h) :
    h.caller.sandbox = b.id ∧ h.caller.delegate = delegate ∧ h.function ∈ b.links := by
  unfold called? at hc
  split at hc
  · obtain ⟨f, hf, rfl⟩ := Option.map_eq_some_iff.mp hc
    exact ⟨rfl, rfl, Array.mem_of_getElem? hf⟩
  · cases hc

theorem hostCall?_caller {t : Turn} {h : HostCall} (ht : hostCall? b delegate t = some h) :
    h.caller.sandbox = b.id ∧ h.caller.delegate = delegate ∧ h.function ∈ b.links := by
  cases t with
  | ended how scene => cases ht
  | step s deliveries result w => exact called?_caller b delegate ht

theorem answer_guestMoves (m : Machine) (function : Nat) (args : List Cell)
    (deliveries : List Delivery) (result : Option Bytes) (w : World) {f : HostFunction}
    (hf : b.links[function]? = some f) :
    (HostCall.run ⟨f, ⟨b.id, b.module.exportsMemory && !m.callers.isEmpty, delegate⟩, args,
        ⟨m.state, result, w⟩⟩).2.GuestMoves
      (answer b delegate m function args deliveries result w).scene := by
  unfold answer HostCall.run
  simp only [hf]
  split
  next e s he =>
    rw [he]
    exact .refl s
  next results s he =>
    rw [he]
    exact .refl s
  next bytes s he =>
    rw [he]
    split
    · exact .refl s
    · exact start_guestMoves b s _ _ _

theorem deliver_guestMoves (m : Machine) (d : Delivery) (place : Int) (deliveries : List Delivery)
    (result : Option Bytes) (w : World) : Scene.GuestMoves ⟨m.state, result, w⟩
      (deliver b delegate m d place deliveries result w).scene := by
  have hw := Scene.write_guestMoves ⟨m.state, result, w⟩ ⟨b.id, b.module.exportsMemory, delegate⟩
    place d.bytes
  unfold deliver
  dsimp only
  split
  next he =>
    rw [he] at hw
    exact hw
  next he =>
    rw [he] at hw
    exact hw

theorem advance_of_hostCall? {t : Turn} {h : HostCall} (ht : hostCall? b delegate t = some h) :
    h.run.2.GuestMoves (advance b delegate t).scene := by
  cases t with
  | ended how scene => cases ht
  | step s deliveries result w =>
    rw [advance_step]
    change called? b delegate _ (pause b s).2 result _ = _ at ht
    unfold react
    cases hp : (pause b s).2 with
    | trapped | finished =>
      rw [hp] at ht
      cases ht
    | call function args =>
      rw [hp] at ht
      obtain ⟨f, hf, rfl⟩ := Option.map_eq_some_iff.mp ht
      exact answer_guestMoves b delegate _ function args deliveries result _ hf

theorem advance_of_no_hostCall {t : Turn} (ht : hostCall? b delegate t = none) :
    t.scene.GuestMoves (advance b delegate t).scene := by
  cases t with
  | ended how scene => exact .refl scene
  | step s deliveries result w =>
    refine (pause_guestMoves b s deliveries result w).trans ?_
    rw [advance_step]
    change called? b delegate _ (pause b s).2 result _ = _ at ht
    unfold react
    cases hp : (pause b s).2 with
    | trapped => exact .refl _
    | call function args =>
      rw [hp] at ht
      have hf : b.links[function]? = none := Option.map_eq_none_iff.mp ht
      simp only [answer, hf]
      exact .refl _
    | finished results =>
      dsimp only
      split
      · exact .refl _
      · exact deliver_guestMoves b delegate _ _ _ _ _ _

def hostCalls (b : Box) (delegate : Option Delegate) : Nat → Turn → List HostCall
  | _, .ended .. => []
  | 0, .step .. => []
  | turns + 1, .step s deliveries result world =>
    (hostCall? b delegate (.step s deliveries result world)).toList ++
      hostCalls b delegate turns (advance b delegate (.step s deliveries result world))

theorem hostCalls_ended (n : Nat) (how : Except Failure (List Cell)) (scene : Scene) :
    hostCalls b delegate n (.ended how scene) = [] := by
  cases n <;> rfl

theorem hostCalls_succ (n : Nat) (t : Turn) : hostCalls b delegate (n + 1) t =
    (hostCall? b delegate t).toList ++ hostCalls b delegate n (advance b delegate t) := by
  cases t with
  | step s deliveries result w => rfl
  | ended how scene => exact (hostCalls_ended b delegate n how scene).symm

theorem mem_hostCalls {n : Nat} {t : Turn} {h : HostCall} : h ∈ hostCalls b delegate n t ↔
    ∃ k < n, hostCall? b delegate ((advance b delegate)^[k] t) = some h := by
  induction n generalizing t with
  | zero => cases t <;> simp [hostCalls]
  | succ n ih =>
    rw [hostCalls_succ, List.mem_append, Option.mem_toList, ih]
    constructor
    · rintro (h | ⟨k, hk, h⟩)
      · exact ⟨0, Nat.succ_pos n, h⟩
      · exact ⟨k + 1, Nat.succ_lt_succ hk, h⟩
    · rintro ⟨_ | k, hk, h⟩
      · exact .inl h
      · exact .inr ⟨k, Nat.lt_of_succ_lt_succ hk, h⟩

structure Follows (R : Scene → Scene → Prop) : Prop where
  guest : ∀ {s t}, s.GuestMoves t → R s t
  trans : ∀ {s t u}, R s t → R t u → R s u

structure Accumulates {α : Type} (R : List α → Scene → Scene → Prop) : Prop where
  guest : ∀ {s t}, s.GuestMoves t → R [] s t
  trans : ∀ {l l' s t u}, R l s t → R l' t u → R (l ++ l') s u

theorem Accumulates.quiet {α : Type} {R : List α → Scene → Scene → Prop} (hR : Accumulates R)
    {l : List α} {s t u : Scene} (h : R l s t) (h' : R [] t u) : R l s u := by
  have htrans := hR.trans h h'
  rwa [List.append_nil] at htrans

variable {b delegate}

theorem iterate_accumulates {α : Type} {R : List α → Scene → Scene → Prop} (hR : Accumulates R)
    (record : HostCall → List α) (t : Turn) (n : Nat)
    (host : ∀ h ∈ hostCalls b delegate n t, R (record h) h.scene h.run.2) :
    R ((hostCalls b delegate n t).flatMap record) t.scene
      ((advance b delegate)^[n] t).scene := by
  induction n generalizing t with
  | zero =>
    have hnone : hostCalls b delegate 0 t = [] := by cases t <;> rfl
    rw [hnone]
    exact hR.guest (.refl _)
  | succ n ih =>
    have hrest := ih (advance b delegate t) fun h hh =>
      host h (by rw [hostCalls_succ]; exact List.mem_append_right _ hh)
    rw [Function.iterate_succ_apply, hostCalls_succ, List.flatMap_append]
    refine hR.trans ?_ hrest
    cases ht : hostCall? b delegate t with
    | none => exact hR.guest (advance_of_no_hostCall b delegate ht)
    | some h =>
      have hh : R (record h) h.scene h.run.2 :=
        host h (by rw [hostCalls_succ, ht]; exact List.mem_cons_self)
      have hturn := hR.trans (hR.guest (hostCall?_guestMoves b delegate ht))
        (hR.trans hh (hR.guest (advance_of_hostCall? b delegate ht)))
      simpa using hturn

variable {R : Scene → Scene → Prop} (hR : Follows R)

include hR

theorem Follows.refl (s : Scene) : R s s := hR.guest (.refl s)

theorem Follows.accumulates : Accumulates fun _ : List Empty => R := ⟨hR.guest, hR.trans⟩

theorem iterate_keeps (t : Turn) (n : Nat)
    (host : ∀ k < n, ∀ h, hostCall? b delegate ((advance b delegate)^[k] t) = some h →
      R h.scene h.run.2) :
    R t.scene ((advance b delegate)^[n] t).scene := by
  refine iterate_accumulates hR.accumulates (fun _ => []) t n fun h hh => ?_
  obtain ⟨k, hk, hh⟩ := (mem_hostCalls b delegate).mp hh
  exact host k hk h hh

omit hR

def stop : Turn → Except Failure (List Cell) × Scene
  | .ended how scene => (how, scene)
  | .step s _ result world => (.error (.trap .interrupted), ⟨s.machine.state, result, world⟩)

theorem drive_eq_stop (t : Turn) (n : Nat) :
    b.drive delegate n t = ((advance b delegate)^[n] t).stop := by
  induction n generalizing t with
  | zero => cases t <;> rfl
  | succ n ih =>
    rw [Function.iterate_succ_apply, ← ih]
    cases t with
    | step s deliveries result w => rfl
    | ended how scene => cases n <;> rfl

end Turn

namespace Sandbox

variable (s : Sandbox)

def scene (w : World) : Scene := ⟨s.guest, s.result, w⟩

def firstTurn (function : Nat) (args : List Cell) (w : World) : Turn :=
  .step (s.box.start s.guest w 0 function args) [] s.result w

def Calls (function : Nat) (args : List Cell) (w : World) (h : HostCall) : Prop :=
  ∃ n < s.box.ceiling, Turn.hostCall? s.box s.delegate
    ((Turn.advance s.box s.delegate)^[n] (s.firstTurn function args w)) = some h

def hostCalls (function : Nat) (args : List Cell) (w : World) : List HostCall :=
  Turn.hostCalls s.box s.delegate s.box.ceiling (s.firstTurn function args w)

def after (t : Turn) : Except Failure (List Cell) × Sandbox × World :=
  (t.stop.1, ⟨s.box, t.scene.guest, t.scene.result, s.delegate⟩, t.scene.world)

theorem after_scene (t : Turn) : (s.after t).2.1.scene (s.after t).2.2 = t.scene := rfl

-- The number of turns is hidden on purpose: it is so large that nothing must ever unfold it.
theorem run_eq_after (function : Nat) (args : List Cell) (w : World) :
    ∃ n, n = s.box.ceiling ∧ s.run function args w =
      s.after ((Turn.advance s.box s.delegate)^[n] (s.firstTurn function args w)) := by
  refine ⟨s.box.ceiling, rfl, ?_⟩
  unfold run firstTurn after
  simp only [Turn.drive_eq_stop]
  generalize (Turn.advance s.box s.delegate)^[s.box.ceiling] _ = t
  cases t <;> rfl

theorem run_box (function : Nat) (args : List Cell) (w : World) :
    (s.run function args w).2.1.box = s.box ∧
      (s.run function args w).2.1.delegate = s.delegate := by
  obtain ⟨n, -, h⟩ := s.run_eq_after function args w
  rw [h]
  exact ⟨rfl, rfl⟩

variable {s} {function : Nat} {args : List Cell} {w : World}

theorem mem_hostCalls {h : HostCall} :
    h ∈ s.hostCalls function args w ↔ s.Calls function args w h := Turn.mem_hostCalls _ _

theorem run_accumulates {α : Type} {R : List α → Scene → Scene → Prop} (hR : Turn.Accumulates R)
    (record : HostCall → List α)
    (host : ∀ h, s.Calls function args w h → R (record h) h.scene h.run.2) :
    R ((s.hostCalls function args w).flatMap record) (s.scene w)
      ((s.run function args w).2.1.scene (s.run function args w).2.2) := by
  have hstart : R [] (s.scene w) (s.firstTurn function args w).scene :=
    hR.guest (Turn.start_guestMoves s.box (s.scene w) 0 function args)
  obtain ⟨n, hn, hs⟩ := s.run_eq_after function args w
  have hturns := Turn.iterate_accumulates hR record (s.firstTurn function args w) n
    fun h hh => host h (mem_hostCalls.mp (by rwa [hn] at hh))
  rw [hs, after_scene, hostCalls, ← hn]
  exact hR.trans hstart hturns

variable {R : Scene → Scene → Prop} (hR : Turn.Follows R)

include hR

theorem run_keeps (host : ∀ h, s.Calls function args w h → R h.scene h.run.2) :
    R (s.scene w) ((s.run function args w).2.1.scene (s.run function args w).2.2) :=
  run_accumulates hR.accumulates (fun _ => []) host

theorem Calls.keeps {h : HostCall} (hh : s.Calls function args w h)
    (host : ∀ h, s.Calls function args w h → R h.scene h.run.2) : R (s.scene w) h.scene := by
  obtain ⟨n, hn, ht⟩ := hh
  have hstart : R (s.scene w) (s.firstTurn function args w).scene :=
    hR.guest (Turn.start_guestMoves s.box (s.scene w) 0 function args)
  have hturns := Turn.iterate_keeps hR (s.firstTurn function args w) n
    fun k hk h hh => host h ⟨k, Nat.lt_trans hk hn, hh⟩
  exact hR.trans hstart (hR.trans hturns (hR.guest (Turn.hostCall?_guestMoves _ _ ht)))

omit hR

theorem Calls.caller {h : HostCall} (hh : s.Calls function args w h) :
    h.caller.sandbox = s.id ∧ h.caller.delegate = s.delegate ∧ h.function ∈ s.box.links := by
  obtain ⟨n, -, ht⟩ := hh
  exact Turn.hostCall?_caller _ _ ht

end Sandbox

end MeteredContracts
