import MeteredContracts.Proofs.Turns

/-!
Nested calls as commissions. What a guest asks for is checked first, and nothing has happened until
then. A commission is carried out in three steps: its budget is debited, its value is sent, and a
call is made; what the call has not used is refunded.
-/

namespace MeteredContracts

open Wasm (Cell)

structure Commission where
  sponsor : Call
  delegate : Delegate
  target : Address
  function : String
  params : Bytes
  fuel : Nat
  value : Nat

def Caller.commission (c : Caller)
    (target function functionLen params paramsLen fuel value : Int) : HostM Commission := do
  let call ← c.call
  let delegate ← c.delegateAt call.depth
  let target ← c.readAddress target
  let function ← c.readText function functionLen
  let params ← c.read params paramsLen
  let fuel ← Caller.unsigned fuel "fuel budget"
  let value ← Caller.unsigned value "call value"
  pure ⟨call, delegate, target, function, params, fuel, value⟩

namespace Commission

variable (o : Commission)

def call : Call :=
  o.sponsor.nested o.target o.function o.params (.ofNat o.fuel) (.ofNat o.value)

def transfer (w : World) : Bool × World :=
  if o.value = 0 then (true, w)
  else match w.ask (.transferBalance o.sponsor.contract o.target (.ofNat o.value)) with
    | (.ok _, w) => (true, w)
    | (.error _, w) => (false, w)

def outcome (w : World) : Option Outcome × World :=
  match o.transfer w with
  | (true, w) => ((some (o.delegate.perform o.call w).1), (o.delegate.perform o.call w).2)
  | (false, w) => (none, w)

def used : Option Outcome → Nat
  | some outcome => outcome.fuelUsed
  | none => 0

def reply : Option Outcome → Reply
  | some ⟨.ok bytes, _⟩ => .deliver bytes
  | _ => .values [.ofInt64 (-1)]

def debited (m : Meter) : Meter := { m with balance := m.remaining - o.fuel }

def settled (m : Meter) (outcome : Option Outcome) : Meter :=
  (o.debited m).refund (o.fuel - used outcome)

def carryOut : HostM Reply := do
  Caller.consumeFuel o.fuel
  if ← Caller.sendValue o.sponsor.contract o.target o.value then
    let outcome ← (fun s =>
      let (outcome, world) := o.delegate.perform o.call s.world
      (.ok outcome, { s with world }) : HostM Outcome)
    Caller.refundFuel (o.fuel - outcome.fuelUsed)
    match outcome.output with
    | .ok bytes => pure (.deliver bytes)
    | .error _ => pure (.values [.ofInt64 (-1)])
  else
    Caller.refundFuel o.fuel
    pure (.values [.ofInt64 (-1)])

theorem sendValue_apply (s : Scene) : Caller.sendValue o.sponsor.contract o.target o.value s =
    (.ok (o.transfer s.world).1, { s with world := (o.transfer s.world).2 }) := by
  unfold Caller.sendValue transfer
  split
  · rfl
  · rw [HostM.bind_apply, HostM.ask_apply]
    dsimp only
    cases h : s.world.ask (.transferBalance o.sponsor.contract o.target (.ofNat o.value)) with
    | mk answer w => cases answer <;> rfl

theorem consumeFuel_apply (s : Scene) : Caller.consumeFuel o.fuel s =
    if s.guest.meter.remaining < o.fuel then (.error (.call .fuelExhausted), s)
    else (.ok (), s.setMeter (o.debited s.guest.meter)) := by
  unfold Caller.consumeFuel Meter.consume
  by_cases h : s.guest.meter.remaining < o.fuel
  · simp only [h, if_true]
  · simp only [h, if_false]
    rfl

theorem carryOut_apply (s : Scene) : o.carryOut s =
    if s.guest.meter.remaining < o.fuel then (.error (.call .fuelExhausted), s)
    else (.ok (reply (o.outcome s.world).1),
      Scene.setMeter { s with world := (o.outcome s.world).2 }
        (o.settled s.guest.meter (o.outcome s.world).1)) := by
  unfold carryOut
  rw [HostM.bind_apply, consumeFuel_apply]
  by_cases h : s.guest.meter.remaining < o.fuel
  · simp only [h, if_true]
  · simp only [h, if_false]
    rw [HostM.bind_apply, sendValue_apply]
    unfold outcome
    have hw : (s.setMeter (o.debited s.guest.meter)).world = s.world := rfl
    rw [hw]
    cases ht : o.transfer s.world with
    | mk sent w =>
      cases sent with
      | false => rfl
      | true =>
        dsimp only
        cases ho : o.delegate.perform o.call w with
        | mk done w' =>
          obtain ⟨output, fuelUsed⟩ := done
          simp only [if_true, HostM.bind_apply, ho]
          cases output <;> rfl

end Commission

namespace Caller

variable (c : Caller)

theorem reads_delegateAt (depth : UInt32) : (c.delegateAt depth).Reads := by
  unfold delegateAt
  split
  · exact HostM.reads_fail _
  · split
    · exact HostM.reads_fail _
    · exact HostM.reads_pure _

theorem delegateAt_fst_eq_ok {depth : UInt32} {s : Scene} {delegate : Delegate}
    (h : (c.delegateAt depth s).1 = .ok delegate) :
    c.delegate = some delegate ∧ depth < delegate.maxDepth := by
  unfold delegateAt at h
  cases hd : c.delegate with
  | none =>
    rw [hd] at h
    cases h
  | some d =>
    simp only [hd] at h
    by_cases hdepth : d.maxDepth ≤ depth
    · rw [if_pos hdepth] at h
      cases h
    · rw [if_neg hdepth] at h
      cases h
      exact ⟨rfl, UInt32.not_le.mp hdepth⟩

theorem reads_unsigned (n : Int) (what : String) : (unsigned n what).Reads := by
  unfold unsigned
  split
  · exact HostM.reads_fail _
  · exact HostM.reads_pure _

theorem reads_commission (target function functionLen params paramsLen fuel value : Int) :
    (c.commission target function functionLen params paramsLen fuel value).Reads := by
  apply c.reads_call.bind
  intro call
  apply (c.reads_delegateAt call.depth).bind
  intro delegate
  apply (c.reads_readAddress target).bind
  intro target
  apply (c.reads_readText function functionLen).bind
  intro function
  apply (c.reads_read params paramsLen).bind
  intro params
  apply (reads_unsigned fuel _).bind
  intro fuel
  exact (reads_unsigned value _).bind fun value => HostM.reads_pure _

theorem callContract_eq_bind (target function functionLen params paramsLen fuel value : Int) :
    c.callContract target function functionLen params paramsLen fuel value =
      c.commission target function functionLen params paramsLen fuel value >>=
        Commission.carryOut := by
  unfold callContract commission
  simp only [bind_assoc, pure_bind]
  rfl

theorem commission_parts {target function functionLen params paramsLen fuel value : Int}
    {s : Scene} {o : Commission}
    (h : (c.commission target function functionLen params paramsLen fuel value s).1 = .ok o) :
    (c.call s).1 = .ok o.sponsor ∧ (c.delegateAt o.sponsor.depth s).1 = .ok o.delegate ∧
      (c.readAddress target s).1 = .ok o.target ∧
      (c.readText function functionLen s).1 = .ok o.function ∧
      (c.read params paramsLen s).1 = .ok o.params ∧
      (unsigned fuel "fuel budget" s).1 = .ok o.fuel ∧
      (unsigned value "call value" s).1 = .ok o.value := by
  obtain ⟨call, hcall, h⟩ := c.reads_call.bind_fst_eq_ok h
  obtain ⟨delegate, hdelegate, h⟩ := (c.reads_delegateAt call.depth).bind_fst_eq_ok h
  obtain ⟨target, htarget, h⟩ := (c.reads_readAddress target).bind_fst_eq_ok h
  obtain ⟨function, hfunction, h⟩ := (c.reads_readText function functionLen).bind_fst_eq_ok h
  obtain ⟨params, hparams, h⟩ := (c.reads_read params paramsLen).bind_fst_eq_ok h
  obtain ⟨fuel, hfuel, h⟩ := (reads_unsigned fuel _).bind_fst_eq_ok h
  obtain ⟨value, hvalue, h⟩ := (reads_unsigned value _).bind_fst_eq_ok h
  cases h
  exact ⟨hcall, hdelegate, htarget, hfunction, hparams, hfuel, hvalue⟩

theorem commission_fst_eq_ok {target function functionLen params paramsLen fuel value : Int}
    {s : Scene} {o : Commission}
    (h : (c.commission target function functionLen params paramsLen fuel value s).1 = .ok o) :
    Registry.lookup s.world.registry c.sandbox = .ok o.sponsor ∧ c.delegate = some o.delegate ∧
      o.sponsor.depth < o.delegate.maxDepth := by
  obtain ⟨hcall, hdelegate, -⟩ := c.commission_parts h
  exact ⟨c.call_fst_eq_ok hcall, c.delegateAt_fst_eq_ok hdelegate⟩

end Caller

namespace HostCall

variable {h : HostCall}

def commission (h : HostCall) : Except Failure Commission :=
  let word (i : Nat) : Int := (h.args.getD i 0).int32
  let long (i : Nat) : Int := (h.args.getD i 0).int64
  (h.caller.commission (word 0) (word 1) (word 2) (word 3) (word 4) (long 5) (long 6) h.scene).1

theorem run_callContract (hf : h.function = .callContract) :
    h.run = match h.commission with
      | .error e => (.error e, h.scene)
      | .ok o => o.carryOut h.scene := by
  obtain ⟨function, c, args, s⟩ := h
  cases hf
  show c.callContract _ _ _ _ _ _ _ s = _
  rw [c.callContract_eq_bind, HostM.bind_apply, (c.reads_commission _ _ _ _ _ _ _).apply_eq]
  unfold commission
  dsimp only
  cases (c.commission _ _ _ _ _ _ _ s).1 <;> rfl

theorem run_of_covered {o : Commission} (hf : h.function = .callContract)
    (ho : h.commission = .ok o) (hfuel : o.fuel ≤ h.scene.guest.meter.remaining) :
    h.run.1 = .ok (Commission.reply (o.outcome h.scene.world).1) ∧
      h.run.2.guest.meter = o.settled h.scene.guest.meter (o.outcome h.scene.world).1 ∧
      h.run.2.world = (o.outcome h.scene.world).2 := by
  rw [h.run_callContract hf, ho]
  dsimp only
  rw [o.carryOut_apply, if_neg (Nat.not_lt.mpr hfuel)]
  exact ⟨rfl, rfl, rfl⟩

theorem commission_of_run {r : Reply} (hf : h.function = .callContract) (hr : h.run.1 = .ok r) :
    ∃ o, h.commission = .ok o ∧ o.fuel ≤ h.scene.guest.meter.remaining := by
  rw [h.run_callContract hf] at hr
  cases ho : h.commission with
  | error e =>
    rw [ho] at hr
    cases hr
  | ok o =>
    refine ⟨o, rfl, Nat.not_lt.mp fun hlt => ?_⟩
    simp only [ho, o.carryOut_apply, if_pos hlt, reduceCtorEq] at hr

end HostCall

end MeteredContracts
