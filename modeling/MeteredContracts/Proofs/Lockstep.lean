import MeteredContracts.Proofs.Invocations
import MeteredContracts.Proofs.SideBySide

namespace MeteredContracts

open Wasm (Activation Cell Machine Pause Step)

variable {validator : Option Validator} {u v : World}

namespace Box

theorem patience_of_timeless {b : Box} (hb : b.deadline = none) (w : World) :
    b.patience w = none := by
  unfold patience
  rw [hb]
  rfl

theorem start_of_timeless {b : Box} (hb : b.deadline = none) (guest : Wasm.State) (u v : World)
    (depth function : Nat) (args : List Cell) :
    b.start guest u depth function args = b.start guest v depth function args := by
  unfold start
  rw [patience_of_timeless hb, patience_of_timeless hb]

end Box

namespace Turn

inductive Alike (validator : Option Validator) : Turn → Turn → Prop
  | step {s : Step} {deliveries : List Delivery} {result : Option Bytes} {u v : World} :
      u.Alike validator v →
      Alike validator (.step s deliveries result u) (.step s deliveries result v)
  | ended {how : Except Failure (List Cell)} {s t : Scene} :
      s.Alike validator t → Alike validator (.ended how s) (.ended how t)

variable {b : Box} (hb : b.deadline = none) {d d' : Option Delegate}
  (hd : Option.Rel (Delegate.Alike validator) d d')

include hb

theorem resume_alike {s t : Scene} (h : s.Alike validator t) (active : Activation)
    (callers : List Activation) (depth : Nat) (results : List Cell) (deliveries : List Delivery) :
    (resume b s active callers depth results deliveries).Alike validator
      (resume b t active callers depth results deliveries) := by
  unfold resume
  rw [Box.patience_of_timeless hb, Box.patience_of_timeless hb, h.guest, h.result]
  exact .step h.world

include hd

theorem answer_alike (m : Machine) (function : Nat) (args : List Cell)
    (deliveries : List Delivery) (result : Option Bytes) (h : u.Alike validator v) :
    (answer b d m function args deliveries result u).Alike validator
      (answer b d' m function args deliveries result v) := by
  unfold answer
  dsimp only
  cases b.links[function]? with
  | none => exact .ended ⟨rfl, rfl, h⟩
  | some f =>
    have hc : Caller.Alike validator ⟨b.id, b.module.exportsMemory && !m.callers.isEmpty, d⟩
      ⟨b.id, b.module.exportsMemory && !m.callers.isEmpty, d'⟩ := ⟨rfl, rfl, hd⟩
    obtain ⟨hr, hs⟩ := hc.run f args ⟨m.state, result, u⟩ ⟨m.state, result, v⟩ ⟨rfl, rfl, h⟩
    dsimp only
    generalize f.run _ args ⟨m.state, result, u⟩ = x at hr hs ⊢
    generalize f.run _ args ⟨m.state, result, v⟩ = y at hr hs ⊢
    obtain ⟨r, s⟩ := x
    obtain ⟨r', t⟩ := y
    obtain rfl : r = r' := hr
    match r with
    | .error e => exact .ended hs
    | .ok (.values results) => exact resume_alike hb hs _ _ _ _ _
    | .ok (.deliver bytes) =>
      dsimp only
      split
      · exact .ended hs
      · rw [Box.start_of_timeless hb _ s.world t.world, hs.guest, hs.result]
        exact .step hs.world

theorem deliver_alike (m : Machine) (delivery : Delivery) (place : Int)
    (deliveries : List Delivery) (result : Option Bytes) (h : u.Alike validator v) :
    (deliver b d m delivery place deliveries result u).Alike validator
      (deliver b d' m delivery place deliveries result v) := by
  have hc : Caller.Alike validator ⟨b.id, b.module.exportsMemory, d⟩
    ⟨b.id, b.module.exportsMemory, d'⟩ := ⟨rfl, rfl, hd⟩
  obtain ⟨hr, hs⟩ := hc.scene_write (s := ⟨m.state, result, u⟩) (t := ⟨m.state, result, v⟩)
    ⟨rfl, rfl, h⟩ place delivery.bytes
  unfold deliver
  dsimp only
  generalize Scene.write ⟨m.state, result, u⟩ _ place delivery.bytes = x at hr hs ⊢
  generalize Scene.write ⟨m.state, result, v⟩ _ place delivery.bytes = y at hr hs ⊢
  obtain ⟨r, s⟩ := x
  obtain ⟨r', t⟩ := y
  obtain rfl : r = r' := hr
  cases r with
  | error e => exact .ended hs
  | ok _ => exact resume_alike hb hs _ _ _ _ _

theorem react_alike (m : Machine) (why : Pause) (deliveries : List Delivery)
    (result : Option Bytes) (h : u.Alike validator v) :
    (react b d m why deliveries result u).Alike validator
      (react b d' m why deliveries result v) := by
  have hw : (b.settleClock m u).Alike validator (b.settleClock m v) := h.clock _ _
  unfold react
  cases why with
  | trapped t => exact .ended ⟨rfl, rfl, hw⟩
  | call function args => exact answer_alike hb hd m function args deliveries result hw
  | finished results =>
    cases deliveries with
    | nil => exact .ended ⟨rfl, rfl, hw⟩
    | cons delivery deliveries => exact deliver_alike hb hd m delivery _ deliveries result hw

theorem advance_alike {t t' : Turn} (h : t.Alike validator t') :
    (advance b d t).Alike validator (advance b d' t') := by
  cases h with
  | @step s deliveries result u v h =>
    cases s with
    | next m => exact react_alike hb hd _ _ deliveries result h
    | pause m why => exact react_alike hb hd m why deliveries result h
  | ended h => exact .ended h

theorem drive_alike (turns : Nat) {t t' : Turn} (h : t.Alike validator t') :
    (b.drive d turns t).1 = (b.drive d' turns t').1 ∧
      (b.drive d turns t).2.Alike validator (b.drive d' turns t').2 := by
  induction turns generalizing t t' with
  | zero =>
    cases h with
    | step h => exact ⟨rfl, rfl, rfl, h⟩
    | ended h => exact ⟨rfl, h⟩
  | succ turns ih =>
    cases h with
    | step h => exact ih (advance_alike hb hd (.step h))
    | ended h => exact ⟨rfl, h⟩

end Turn

namespace Sandbox

structure Alike (validator : Option Validator) (s t : Sandbox) : Prop where
  box : s.box = t.box
  timeless : s.box.deadline = none
  guest : s.guest = t.guest
  result : s.result = t.result
  delegate : Option.Rel (Delegate.Alike validator) s.delegate t.delegate

structure EndsAlike {α : Type} (validator : Option Validator) (x y : α × Sandbox × World) :
    Prop where
  result : x.1 = y.1
  sandbox : x.2.1.Alike validator y.2.1
  world : x.2.2.Alike validator y.2.2

variable {s t : Sandbox}

theorem run_alike (hst : s.Alike validator t) (huv : u.Alike validator v) (function : Nat)
    (args : List Cell) :
    EndsAlike validator (s.run function args u) (t.run function args v) := by
  obtain ⟨box, guest, result, d⟩ := s
  obtain ⟨box', guest', result', d'⟩ := t
  obtain ⟨hbox, hb, hguest, hresult, hd⟩ := hst
  cases hbox
  cases hguest
  cases hresult
  have hstart : Turn.Alike validator (.step (box.start guest u 0 function args) [] result u)
      (.step (box.start guest v 0 function args) [] result v) := by
    rw [Box.start_of_timeless hb guest u v]
    exact .step huv
  obtain ⟨hr, hs⟩ := Turn.drive_alike hb hd box.ceiling hstart
  unfold run
  dsimp only
  generalize box.drive d box.ceiling _ = x at hr hs ⊢
  generalize box.drive d' box.ceiling _ = y at hr hs ⊢
  obtain ⟨how, s⟩ := x
  obtain ⟨how', t⟩ := y
  exact ⟨hr, ⟨rfl, hb, hs.guest, hs.result, hd⟩, hs.world⟩

theorem classify_alike (hst : s.Alike validator t) (f : Failure) : s.classify f = t.classify f := by
  unfold classify
  rw [hst.box]

theorem placePayload_alike (hst : s.Alike validator t) (huv : u.Alike validator v)
    (payload : Bytes) :
    EndsAlike validator (s.placePayload payload u) (t.placePayload payload v) := by
  have hrun (index : Nat) := run_alike hst huv index [.ofNat payload.length]
  unfold placePayload
  dsimp only
  rw [← hst.box]
  split
  · exact ⟨rfl, hst, huv⟩
  · split
    · exact ⟨rfl, hst, huv⟩
    next index _ =>
      split
      · exact ⟨rfl, hst, huv⟩
      · split
        · exact ⟨rfl, hst, huv⟩
        · obtain ⟨hr, hst, huv⟩ := hrun index
          generalize s.run index _ u = x at hr hst huv ⊢
          generalize t.run index _ v = y at hr hst huv ⊢
          obtain ⟨r, s', u'⟩ := x
          obtain ⟨r', t', v'⟩ := y
          obtain rfl : r = r' := hr
          cases r with
          | error f =>
            have hf : s'.classify f = t'.classify f := classify_alike hst f
            dsimp only
            rw [← hf]
            generalize s'.classify f = e
            split <;> exact ⟨rfl, hst, huv⟩
          | ok results =>
            obtain ⟨box, ⟨⟨bytes, limit⟩, globals, meter⟩, result, d⟩ := s'
            obtain ⟨box', guest', result', d'⟩ := t'
            obtain ⟨hbox, hb, hguest, hresult, hd⟩ := hst
            cases hbox
            cases hguest
            cases hresult
            dsimp only
            split
            · exact ⟨rfl, ⟨rfl, hb, rfl, rfl, hd⟩, huv⟩
            · split
              · exact ⟨rfl, ⟨rfl, hb, rfl, rfl, hd⟩, huv⟩
              · exact ⟨rfl, ⟨rfl, hb, rfl, rfl, hd⟩, huv⟩

theorem invoke_alike (hst : s.Alike validator t) (huv : u.Alike validator v) (function : String)
    (payload : Bytes) :
    EndsAlike validator (s.invoke function payload u) (t.invoke function payload v) := by
  obtain ⟨hr, hst, huv⟩ := placePayload_alike hst huv payload
  unfold invoke
  generalize s.placePayload payload u = x at hr hst huv ⊢
  generalize t.placePayload payload v = y at hr hst huv ⊢
  obtain ⟨r, s', u'⟩ := x
  obtain ⟨r', t', v'⟩ := y
  obtain rfl : r = r' := hr
  cases r with
  | error e => exact ⟨rfl, hst, huv⟩
  | ok place =>
    have hrun (index : Nat) := run_alike hst huv index [.ofNat place]
    dsimp only at hst huv hrun ⊢
    rw [← hst.box]
    split
    · exact ⟨rfl, hst, huv⟩
    next index _ =>
      split
      · exact ⟨rfl, hst, huv⟩
      · obtain ⟨hr, hst, huv⟩ := hrun index
        generalize s'.run index _ u' = x at hr hst huv ⊢
        generalize t'.run index _ v' = y at hr hst huv ⊢
        obtain ⟨r, s', u'⟩ := x
        obtain ⟨r', t', v'⟩ := y
        obtain rfl : r = r' := hr
        cases r with
        | error f => exact ⟨congrArg Except.error (classify_alike hst f), hst, huv⟩
        | ok _ =>
          exact ⟨congrArg (fun bytes => Except.ok (Option.getD bytes [])) hst.result,
            { hst with result := rfl }, huv⟩

end Sandbox

end MeteredContracts
