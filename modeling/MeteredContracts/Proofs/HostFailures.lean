import MeteredContracts.Proofs.Commission
import MeteredContracts.Proofs.GuestWrites

namespace MeteredContracts

open Wasm (Cell)

inductive Caller.Refusal (c : Caller) (r : Registry) : HostError → Prop
  | unregistered {e : HostError} : Registry.lookup r c.sandbox = .error e → Refusal c r e
  | undelegated : c.delegate = none →
      Refusal c r (.invalidArgument "nested calls are not available in this sandbox")
  | tooDeep (limit : UInt32) : Refusal c r (.callDepthExceeded limit)
  | noMemory : Refusal c r (.missingExport "memory")
  | memory (reason : String) : Refusal c r (.memoryAccess reason)
  | text (reason : String) :
      Refusal c r (.invalidArgument s!"string is not valid UTF-8: {reason}")
  | negative (what : String) (n : Int) : Refusal c r (.invalidArgument s!"negative {what} {n}")
  | ledger (e : LedgerError) : Refusal c r (.ledger e)

namespace Scene

theorem read_eq_error {s : Scene} {c : Caller} {ptr len : Int} {e : HostError}
    (h : s.read c ptr len = .error e) :
    e = .missingExport "memory" ∨ ∃ reason, e = .memoryAccess reason := by
  unfold read at h
  split at h
  · split at h
    next hr =>
      cases h
      exact .inr (range_eq_error hr)
    · cases h
  · cases h
    exact .inl rfl

end Scene

namespace HostM

variable {α β : Type} {P : HostError → Prop}

def FailsAt (P : HostError → Prop) (x : HostM α) (s : Scene) : Prop :=
  ∀ f, (x s).1 = .error f → ∃ e, f = .host e ∧ P e

def FailsWith (P : HostError → Prop) (x : HostM α) : Prop := ∀ s, FailsAt P x s

theorem FailsAt.bind {x : HostM α} {f : α → HostM β} {s : Scene} (hx : FailsAt P x s)
    (hf : ∀ a, FailsWith P (f a)) : FailsAt P (x >>= f) s := by
  intro g hg
  rw [bind_apply] at hg
  rcases h : x s with ⟨e | a, s'⟩
  · rw [h] at hg
    cases hg
    exact hx g (by rw [h])
  · rw [h] at hg
    exact hf a s' g hg

theorem FailsWith.bind {x : HostM α} {f : α → HostM β} (hx : FailsWith P x)
    (hf : ∀ a, FailsWith P (f a)) : FailsWith P (x >>= f) := fun s => (hx s).bind hf

theorem failsWith_pure (a : α) : FailsWith P (pure a : HostM α) := by
  rintro s f ⟨⟩

theorem failsWith_fail {e : HostError} (he : P e) : FailsWith P (fail e : HostM α) := by
  rintro s f ⟨⟩
  exact ⟨e, rfl, he⟩

theorem failsWith_get : FailsWith P (get : HostM Scene) := by
  rintro s f ⟨⟩

theorem failsAt_look {f : Scene → Except HostError α} {s : Scene}
    (h : ∀ e, f s = .error e → P e) : FailsAt P (do ofExcept (f (← get)) : HostM α) s := by
  intro g hg
  change (ofExcept (f s) s).1 = .error g at hg
  cases hr : f s with
  | error e =>
    rw [hr] at hg
    cases hg
    exact ⟨e, rfl, h e hr⟩
  | ok a =>
    rw [hr] at hg
    cases hg

theorem failsWith_ask (r : Request) : FailsWith P (ask r) := by
  rintro s f ⟨⟩

end HostM

open HostM

namespace Caller

variable (c : Caller) {r : Registry}

theorem Refusal.of_memory {e : HostError}
    (h : e = .missingExport "memory" ∨ ∃ reason, e = .memoryAccess reason) : c.Refusal r e := by
  obtain rfl | ⟨reason, rfl⟩ := h
  · exact .noMemory
  · exact .memory reason

theorem failsAt_call (s : Scene) : FailsAt (c.Refusal s.world.registry) c.call s :=
  failsAt_look fun _ => .unregistered

theorem failsWith_read (ptr len : Int) : FailsWith (c.Refusal r) (c.read ptr len) := fun _ =>
  failsAt_look fun _ h => .of_memory c (Scene.read_eq_error h)

theorem failsWith_write (ptr : Int) (bs : Bytes) :
    FailsWith (c.Refusal r) (c.write ptr bs) := by
  intro s f hf
  unfold write at hf
  split at hf
  · cases hf
  next he =>
    cases hf
    exact ⟨_, rfl, .of_memory c (Scene.write_eq_error he).2⟩

theorem failsWith_readAddress (ptr : Int) : FailsWith (c.Refusal r) (c.readAddress ptr) := by
  apply (c.failsWith_read ptr 33).bind
  intro bs
  split
  · exact failsWith_pure _
  · exact failsWith_fail (.memory _)

theorem failsWith_readText (ptr len : Int) : FailsWith (c.Refusal r) (c.readText ptr len) := by
  apply (c.failsWith_read ptr len).bind
  intro bs
  split
  · exact failsWith_pure _
  · exact failsWith_fail (.text _)

theorem failsWith_unsigned (n : Int) (what : String) :
    FailsWith (c.Refusal r) (unsigned n what) := by
  unfold unsigned
  split
  · exact failsWith_fail (.negative what n)
  · exact failsWith_pure _

theorem failsWith_delegateAt (depth : UInt32) :
    FailsWith (c.Refusal r) (c.delegateAt depth) := by
  unfold delegateAt
  split
  next hd => exact failsWith_fail (.undelegated hd)
  · split
    · exact failsWith_fail (.tooDeep _)
    · exact failsWith_pure _

theorem failsWith_setCallResult (ptr len : Int) :
    FailsWith (c.Refusal r) (c.setCallResult ptr len) := by
  apply (c.failsWith_read ptr len).bind
  rintro bytes s f ⟨⟩

theorem failsWith_writeLog (level ptr len : Int) :
    FailsWith (c.Refusal r) (c.writeLog level ptr len) := by
  intro s f hf
  simp only [writeLog, bind_apply, get_apply] at hf
  cases hr : s.read c ptr len with
  | error e =>
    rw [hr] at hf
    cases hf
  | ok bytes =>
    rw [hr] at hf
    cases hf

variable (s : Scene)

theorem failsAt_commission (target function functionLen params paramsLen fuel value : Int) :
    FailsAt (c.Refusal s.world.registry)
      (c.commission target function functionLen params paramsLen fuel value) s := by
  apply (c.failsAt_call s).bind
  intro call
  apply (c.failsWith_delegateAt call.depth).bind
  intro delegate
  apply (c.failsWith_readAddress target).bind
  intro target
  apply (c.failsWith_readText function functionLen).bind
  intro function
  apply (c.failsWith_read params paramsLen).bind
  intro params
  apply (c.failsWith_unsigned fuel _).bind
  intro fuel
  exact (c.failsWith_unsigned value _).bind fun value => failsWith_pure _

theorem failsAt_getBalance (account : Int) :
    FailsAt (c.Refusal s.world.registry) (c.getBalance account) s := by
  rw [getBalance, discard_bind]
  apply (c.failsAt_call s).bind
  intro call
  apply (c.failsWith_readAddress account).bind
  intro a
  apply (failsWith_ask _).bind
  intro answer
  cases answer with
  | ok amount => exact failsWith_pure _
  | error e => exact failsWith_fail (.ledger e)

theorem failsAt_sendBalance (receiver amount : Int) :
    FailsAt (c.Refusal s.world.registry) (c.sendBalance receiver amount) s := by
  apply (c.failsAt_call s).bind
  intro call
  apply (c.failsWith_readAddress receiver).bind
  intro a
  split
  · exact failsWith_fail (.negative "transfer amount" amount)
  · apply (failsWith_ask _).bind
    intro answer
    cases answer <;> exact failsWith_pure _

theorem failsAt_getState (key keyLen out capacity : Int) :
    FailsAt (c.Refusal s.world.registry) (c.getState key keyLen out capacity) s := by
  apply (c.failsAt_call s).bind
  intro call
  apply (c.failsWith_read key keyLen).bind
  intro key
  apply (failsWith_ask _).bind
  intro answer
  match answer with
  | .error e => exact failsWith_fail (.ledger e)
  | .ok none => exact failsWith_pure _
  | .ok (some value) => exact (c.failsWith_write _ _).bind fun _ => failsWith_pure _

theorem failsAt_putState (key keyLen value valueLen : Int) :
    FailsAt (c.Refusal s.world.registry) (c.putState key keyLen value valueLen) s := by
  apply (c.failsAt_call s).bind
  intro call
  apply (c.failsWith_read key keyLen).bind
  intro key
  apply (c.failsWith_read value valueLen).bind
  intro value
  apply (failsWith_ask _).bind
  intro answer
  cases answer with
  | ok _ => exact failsWith_pure _
  | error e => exact failsWith_fail (.ledger e)

theorem failsAt_deleteState (key keyLen : Int) :
    FailsAt (c.Refusal s.world.registry) (c.deleteState key keyLen) s := by
  apply (c.failsAt_call s).bind
  intro call
  apply (c.failsWith_read key keyLen).bind
  intro key
  apply (failsWith_ask _).bind
  intro answer
  match answer with
  | .ok true => exact failsWith_pure _
  | .ok false => exact failsWith_pure _
  | .error e => exact failsWith_fail (.ledger e)

theorem failsAt_deploy (id idLen data dataLen out : Int) :
    FailsAt (c.Refusal s.world.registry) (c.deploy id idLen data dataLen out) s := by
  rw [deploy, discard_bind]
  apply (c.failsAt_call s).bind
  intro call
  apply (c.failsWith_read id idLen).bind
  intro id
  apply (c.failsWith_read data dataLen).bind
  intro data
  apply (failsWith_ask _).bind
  intro answer
  cases answer with
  | error e => exact failsWith_pure _
  | ok a => exact (c.failsWith_write _ _).bind fun _ => failsWith_pure _

end Caller

theorem HostFunction.failsAt {f : HostFunction} (hf : f ∈ standard) (hn : f ≠ .callContract)
    (c : Caller) (args : List Cell) (s : Scene) :
    FailsAt (c.Refusal s.world.registry) (f.run c args) s := by
  cases f with
  | callContract => exact absurd rfl hn
  | meter f => simp [standard] at hf
  | remainingFuel => exact (failsWith_get s).bind fun _ => failsWith_pure _
  | writeLog => exact (c.failsWith_writeLog _ _ _ s).bind fun _ => failsWith_pure _
  | getBalance => exact (c.failsAt_getBalance s _).bind fun _ => failsWith_pure _
  | sendBalance => exact (c.failsAt_sendBalance s _ _).bind fun _ => failsWith_pure _
  | getState => exact (c.failsAt_getState s _ _ _ _).bind fun _ => failsWith_pure _
  | putState => exact (c.failsAt_putState s _ _ _ _).bind fun _ => failsWith_pure _
  | deleteState => exact (c.failsAt_deleteState s _ _).bind fun _ => failsWith_pure _
  | setCallResult => exact (c.failsWith_setCallResult _ _ s).bind fun _ => failsWith_pure _
  | deploy => exact (c.failsAt_deploy s _ _ _ _ _).bind fun _ => failsWith_pure _

namespace HostCall

variable {h : HostCall}

def Refusal (h : HostCall) : HostError → Prop := h.caller.Refusal h.scene.world.registry

def Overdraws (h : HostCall) : Prop :=
  h.function = .callContract ∧
    ∃ o, h.commission = .ok o ∧ h.scene.guest.meter.remaining < o.fuel

theorem run_of_overdraws (ho : h.Overdraws) : h.run = (.error (.call .fuelExhausted), h.scene) := by
  obtain ⟨hf, o, ho, hlt⟩ := ho
  rw [h.run_callContract hf, ho]
  dsimp only
  rw [o.carryOut_apply, if_pos hlt]

theorem run_fst_eq_error (hf : h.function ∈ HostFunction.standard) {f : Failure}
    (hr : h.run.1 = .error f) :
    (∃ e, f = .host e ∧ h.Refusal e) ∧ ¬h.Overdraws ∨ f = .call .fuelExhausted ∧ h.Overdraws := by
  by_cases hd : h.Overdraws
  · rw [h.run_of_overdraws hd] at hr
    cases hr
    exact .inr ⟨rfl, hd⟩
  · refine .inl ⟨?_, hd⟩
    by_cases hc : h.function = .callContract
    · rw [h.run_callContract hc] at hr
      cases ho : h.commission with
      | error e =>
        rw [ho] at hr
        cases hr
        exact h.caller.failsAt_commission h.scene _ _ _ _ _ _ _ f ho
      | ok o =>
        have hcovered : ¬h.scene.guest.meter.remaining < o.fuel := fun hlt => hd ⟨hc, o, ho, hlt⟩
        rw [ho] at hr
        dsimp only at hr
        rw [o.carryOut_apply, if_neg hcovered] at hr
        cases hr
    · exact HostFunction.failsAt hf hc h.caller h.args h.scene f hr

end HostCall

end MeteredContracts
