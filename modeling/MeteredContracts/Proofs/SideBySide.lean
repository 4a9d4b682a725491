import MeteredContracts.Proofs.Caching
import MeteredContracts.Proofs.HostRules
import MeteredContracts.Proofs.Transfers

/-!
Guests side by side. Two guests that start alike, in worlds that differ in nothing but their caches,
clocks and journals, cannot be told apart: every host function gives them the same answer, and so
their runs go the same way and end alike.
-/

namespace MeteredContracts

open Wasm (Cell)

namespace Ledger

theorem serve_code {a : Address} {r : Request} (hr : r.MadeBy a) (l : Ledger) :
    (l.serve r).2.code = l.code := by
  cases r with
  | getBalance | getState | putState | deleteState => rfl
  | transferBalance sender receiver amount =>
    obtain ⟨balances, h⟩ := l.transfer_balances sender receiver amount
    show (l.transfer sender receiver amount).2.code = l.code
    rw [h]
  | newAccount id data =>
    show (l.newAccount id data).2.code = l.code
    unfold newAccount
    split <;> rfl
  | getAccountContract | getContractBytes | setAccountContract | setContractBytes => cases hr

end Ledger

namespace Service

theorem ask_getContractBytes_fst (s : Service) (id : ContractId) :
    (s.ask (.getContractBytes id)).1 =
      match s.outages.get? .getContractBytes with
      | some text => .error (.backend text)
      | none => s.ledger.contractBytes id := by
  have hm : (Request.getContractBytes id).method = .getContractBytes := rfl
  unfold ask
  rw [hm]
  cases s.outages.get? .getContractBytes <;> rfl

theorem ask_of_guest {a : Address} {r : Request} (hr : r.MadeBy a) (s : Service) :
    (s.ask r).2.outages = s.outages ∧ (s.ask r).2.delays = s.delays ∧
      (s.ask r).2.ledger.code = s.ledger.code := by
  unfold ask
  split
  · exact ⟨rfl, rfl, rfl⟩
  · exact ⟨rfl, rfl, Ledger.serve_code hr s.ledger⟩

theorem artifact_ask {a : Address} {r : Request} (hr : r.MadeBy a) (s : Service)
    (validator : Option Validator) (id : ContractId) :
    (s.ask r).2.artifact validator id = s.artifact validator id := by
  obtain ⟨houtages, -, hcode⟩ := ask_of_guest hr s
  unfold artifact
  rw [ask_getContractBytes_fst, ask_getContractBytes_fst, houtages]
  unfold Ledger.contractBytes
  rw [hcode]

theorem artifact_of_stored {s t : Service} {validator : Option Validator} {id : ContractId}
    {a : Artifact} (h : s.artifact validator id = .ok a)
    (hstored : t.ledger.contractBytes id = s.ledger.contractBytes id)
    (hasked : t.outages.get? .getContractBytes = none ∨
      t.outages.get? .getContractBytes = s.outages.get? .getContractBytes) :
    t.artifact validator id = .ok a := by
  have hbytes : (t.ask (.getContractBytes id)).1 = (s.ask (.getContractBytes id)).1 := by
    obtain ⟨bytes, hs, -⟩ := artifact_eq_ok h
    rw [ask_getContractBytes_fst] at hs
    rw [ask_getContractBytes_fst, ask_getContractBytes_fst, hstored]
    cases ho : s.outages.get? .getContractBytes with
    | some text =>
      rw [ho] at hs
      cases hs
    | none =>
      rw [ho, or_self] at hasked
      rw [hasked]
  unfold artifact at h ⊢
  rwa [hbytes]

end Service

/-- Two worlds that only caching has driven apart, or time. -/
structure World.Alike (validator : Option Validator) (u v : World) : Prop where
  service : u.service = v.service
  registry : u.registry = v.registry
  nextSandbox : u.nextSandbox = v.nextSandbox
  calls : u.statistics.calls = v.statistics.calls
  fuelUsed : u.statistics.fuelUsed = v.statistics.fuelUsed
  left : u.Faithful validator
  right : v.Faithful validator

structure Scene.Alike (validator : Option Validator) (s t : Scene) : Prop where
  guest : s.guest = t.guest
  result : s.result = t.result
  world : s.world.Alike validator t.world

namespace World.Alike

variable {validator : Option Validator} {u v : World} (h : u.Alike validator v)

include h

theorem note (e : Event) : (u.note e).Alike validator (v.note e) := { h with }

theorem clock (c d : Clock) :
    ({ u with clock := c } : World).Alike validator { v with clock := d } := { h with }

theorem ask_snd {a : Address} {r : Request} (hr : r.MadeBy a) :
    (u.ask r).2.Alike validator (v.ask r).2 where
  service := congrArg (fun s => (s.ask r).2) h.service
  registry := h.registry
  nextSandbox := h.nextSandbox
  calls := h.calls
  fuelUsed := h.fuelUsed
  left id b hb := (u.service.artifact_ask hr validator id).trans (h.left id b hb)
  right id b hb := (v.service.artifact_ask hr validator id).trans (h.right id b hb)

theorem ask_fst (r : Request) : (u.ask r).1 = (v.ask r).1 :=
  congrArg (fun s => (s.ask r).1) h.service

end World.Alike

structure Delegate.Alike (validator : Option Validator) (d d' : Delegate) : Prop where
  maxDepth : d.maxDepth = d'.maxDepth
  perform : ∀ {u v : World} (call : Call), u.Alike validator v →
    (d.perform call u).1 = (d'.perform call v).1 ∧
      (d.perform call u).2.Alike validator (d'.perform call v).2

structure Caller.Alike (validator : Option Validator) (c d : Caller) : Prop where
  sandbox : c.sandbox = d.sandbox
  exportsMemory : c.exportsMemory = d.exportsMemory
  delegate : Option.Rel (Delegate.Alike validator) c.delegate d.delegate

def HostM.Agree {α : Type} (validator : Option Validator) (x y : HostM α) : Prop :=
  ∀ s t, s.Alike validator t → (x s).1 = (y t).1 ∧ (x s).2.Alike validator (y t).2

namespace HostM

variable {α β : Type} {validator : Option Validator}

theorem agree_pure (a : α) : Agree validator (pure a) (pure a) := fun _ _ h => ⟨rfl, h⟩

theorem agree_throw (f : Failure) : Agree validator (throw f : HostM α) (throw f) :=
  fun _ _ h => ⟨rfl, h⟩

theorem agree_fail (e : HostError) : Agree validator (fail e : HostM α) (fail e) :=
  agree_throw (.host e)

theorem Agree.bind {x y : HostM α} {f g : α → HostM β} (hx : Agree validator x y)
    (hf : ∀ a, Agree validator (f a) (g a)) : Agree validator (x >>= f) (y >>= g) := by
  intro s t h
  obtain ⟨hr, hs⟩ := hx s t h
  rw [bind_apply, bind_apply]
  rcases hxs : x s with ⟨r, s'⟩
  rcases hyt : y t with ⟨r', t'⟩
  rw [hxs, hyt] at hr hs
  obtain rfl : r = r' := hr
  cases r with
  | ok a => exact hf a s' t' hs
  | error e => exact ⟨rfl, hs⟩

theorem agree_ofExcept (r : Except HostError α) : Agree validator (ofExcept r) (ofExcept r) := by
  cases r with
  | ok a => exact agree_pure a
  | error e => exact agree_fail e

theorem agree_look {f g : Scene → Except HostError α}
    (h : ∀ s t, s.Alike validator t → f s = g t) :
    Agree validator (do ofExcept (f (← get))) (do ofExcept (g (← get))) := by
  intro s t hst
  rw [bind_apply, bind_apply]
  simp only [get_apply]
  rw [h s t hst]
  exact agree_ofExcept (g t) s t hst

theorem agree_modify {f : Scene → Scene}
    (h : ∀ s t, s.Alike validator t → (f s).Alike validator (f t)) :
    Agree validator (modify f : HostM PUnit) (modify f) :=
  fun s t hst => ⟨rfl, h s t hst⟩

theorem agree_ask {a : Address} {r : Request} (hr : r.MadeBy a) :
    Agree validator (ask r) (ask r) := by
  intro s t h
  rw [ask_apply, ask_apply]
  exact ⟨congrArg Except.ok (h.world.ask_fst r), { h with world := h.world.ask_snd hr }⟩

end HostM

namespace Scene

variable {validator : Option Validator}

theorem overwrite_alike {s t : Scene} (h : s.Alike validator t) (start : Nat) (bs : Bytes) :
    (s.overwrite start bs).Alike validator (t.overwrite start bs) := by
  obtain ⟨⟨⟨bytes, limit⟩, globals, meter⟩, result, u⟩ := s
  obtain ⟨guest, result', v⟩ := t
  obtain ⟨hg, hr, hw⟩ := h
  cases hg
  cases hr
  exact ⟨rfl, rfl, hw⟩

theorem setMeter_alike {s t : Scene} (h : s.Alike validator t) (meter : Meter) :
    (s.setMeter meter).Alike validator (t.setMeter meter) :=
  { h with guest := congrArg (fun g : Wasm.State => { g with meter }) h.guest }

end Scene

namespace Caller.Alike

open HostM

variable {validator : Option Validator} {c d : Caller} (h : c.Alike validator d)

include h

theorem call : Agree validator c.call d.call :=
  agree_look fun s t hst => by rw [hst.world.registry, h.sandbox]

theorem scene_read {s t : Scene} (hst : s.Alike validator t) (ptr len : Int) :
    s.read c ptr len = t.read d ptr len := by
  unfold Scene.read
  rw [h.exportsMemory, hst.guest]

theorem read (ptr len : Int) : Agree validator (c.read ptr len) (d.read ptr len) :=
  agree_look fun _ _ hst => h.scene_read hst ptr len

theorem scene_write {s t : Scene} (hst : s.Alike validator t) (ptr : Int) (bs : Bytes) :
    (s.write c ptr bs).1 = (t.write d ptr bs).1 ∧
      (s.write c ptr bs).2.Alike validator (t.write d ptr bs).2 := by
  unfold Scene.write
  rw [h.exportsMemory, hst.guest]
  split
  · split
    · exact ⟨rfl, hst⟩
    · split
      · exact ⟨rfl, hst⟩
      · exact ⟨rfl, Scene.overwrite_alike hst _ _⟩
  · exact ⟨rfl, hst⟩

theorem write (ptr : Int) (bs : Bytes) : Agree validator (c.write ptr bs) (d.write ptr bs) := by
  intro s t hst
  obtain ⟨hr, hs⟩ := h.scene_write hst ptr bs
  unfold Caller.write
  rcases hc : s.write c ptr bs with ⟨r, s'⟩
  rcases hd : t.write d ptr bs with ⟨r', t'⟩
  rw [hc, hd] at hr hs
  obtain rfl : r = r' := hr
  cases r with
  | ok _ => exact ⟨rfl, hs⟩
  | error e => exact ⟨rfl, hs⟩

theorem readAddress (ptr : Int) : Agree validator (c.readAddress ptr) (d.readAddress ptr) := by
  apply (h.read ptr 33).bind
  intro bs
  split
  · exact agree_pure _
  · exact agree_fail _

theorem readText (ptr len : Int) : Agree validator (c.readText ptr len) (d.readText ptr len) := by
  apply (h.read ptr len).bind
  intro bs
  split
  · exact agree_pure _
  · exact agree_fail _

theorem writeLog (level ptr len : Int) :
    Agree validator (c.writeLog level ptr len) (d.writeLog level ptr len) := by
  intro s t hst
  simp only [Caller.writeLog, bind_apply, get_apply]
  rw [h.scene_read hst, hst.world.registry, h.sandbox]
  cases t.read d ptr len with
  | error e => exact ⟨rfl, { hst with world := hst.world.note _ }⟩
  | ok bytes => exact ⟨rfl, { hst with world := hst.world.note _ }⟩

theorem getBalance (account : Int) :
    Agree validator (c.getBalance account) (d.getBalance account) := by
  rw [Caller.getBalance, Caller.getBalance, discard_bind, discard_bind]
  apply h.call.bind
  intro call
  apply (h.readAddress account).bind
  intro a
  apply (agree_ask (a := a) (r := .getBalance a) trivial).bind
  intro answer
  cases answer with
  | ok amount => exact agree_pure _
  | error e => exact agree_fail _

theorem sendBalance (receiver amount : Int) :
    Agree validator (c.sendBalance receiver amount) (d.sendBalance receiver amount) := by
  apply h.call.bind
  intro call
  apply (h.readAddress receiver).bind
  intro receiver
  split
  · exact agree_fail _
  · apply (agree_ask (r := .transferBalance call.contract _ _) rfl).bind
    intro answer
    cases answer <;> exact agree_pure _

theorem getState (key keyLen out capacity : Int) : Agree validator
    (c.getState key keyLen out capacity) (d.getState key keyLen out capacity) := by
  apply h.call.bind
  intro call
  apply (h.read key keyLen).bind
  intro key
  apply (agree_ask (r := .getState call.contract key) rfl).bind
  intro answer
  match answer with
  | .error e => exact agree_fail _
  | .ok none => exact agree_pure _
  | .ok (some value) => exact (h.write out _).bind fun _ => agree_pure _

theorem putState (key keyLen value valueLen : Int) : Agree validator
    (c.putState key keyLen value valueLen) (d.putState key keyLen value valueLen) := by
  apply h.call.bind
  intro call
  apply (h.read key keyLen).bind
  intro key
  apply (h.read value valueLen).bind
  intro value
  apply (agree_ask (r := .putState call.contract key value) rfl).bind
  intro answer
  cases answer with
  | ok _ => exact agree_pure _
  | error e => exact agree_fail _

theorem deleteState (key keyLen : Int) :
    Agree validator (c.deleteState key keyLen) (d.deleteState key keyLen) := by
  apply h.call.bind
  intro call
  apply (h.read key keyLen).bind
  intro key
  apply (agree_ask (r := .deleteState call.contract key) rfl).bind
  intro answer
  match answer with
  | .ok true => exact agree_pure _
  | .ok false => exact agree_pure _
  | .error e => exact agree_fail _

theorem setCallResult (ptr len : Int) :
    Agree validator (c.setCallResult ptr len) (d.setCallResult ptr len) :=
  (h.read ptr len).bind fun _ => agree_modify fun _ _ hst => { hst with result := rfl }

theorem deploy (id idLen data dataLen out : Int) : Agree validator
    (c.deploy id idLen data dataLen out) (d.deploy id idLen data dataLen out) := by
  rw [Caller.deploy, Caller.deploy, discard_bind, discard_bind]
  apply h.call.bind
  intro call
  apply (h.read id idLen).bind
  intro id
  apply (h.read data dataLen).bind
  intro data
  apply (agree_ask (a := call.contract) (r := .newAccount ⟨id⟩ data) trivial).bind
  intro answer
  cases answer with
  | ok a => exact (h.write out _).bind fun _ => agree_pure _
  | error e => exact agree_pure _

omit h in
theorem remainingFuel : Agree validator Caller.remainingFuel Caller.remainingFuel := by
  intro s t hst
  unfold Caller.remainingFuel
  simp only [bind_apply, get_apply]
  rw [hst.guest]
  exact ⟨rfl, hst⟩

omit h in
theorem consumeFuel (amount : Nat) :
    Agree validator (Caller.consumeFuel amount) (Caller.consumeFuel amount) := by
  intro s t hst
  unfold Caller.consumeFuel
  rw [hst.guest]
  split
  · exact ⟨rfl, Scene.setMeter_alike hst _⟩
  · exact ⟨rfl, hst⟩

omit h in
theorem refundFuel (amount : Nat) :
    Agree validator (Caller.refundFuel amount) (Caller.refundFuel amount) :=
  agree_modify fun s t hst => by
    rw [hst.guest]
    exact Scene.setMeter_alike hst _

omit h in
theorem addFuel (amount : Nat) :
    Agree validator (Caller.addFuel amount) (Caller.addFuel amount) :=
  agree_modify fun s t hst => by
    rw [hst.guest]
    exact Scene.setMeter_alike hst _

omit h in
theorem unsigned (n : Int) (what : String) :
    Agree validator (Caller.unsigned n what) (Caller.unsigned n what) := by
  unfold Caller.unsigned
  split
  · exact agree_fail _
  · exact agree_pure _

omit h in
theorem sendValue (sender receiver : Address) (value : Nat) :
    Agree validator (Caller.sendValue sender receiver value)
      (Caller.sendValue sender receiver value) := by
  unfold Caller.sendValue
  split
  · exact agree_pure _
  · apply (agree_ask (r := .transferBalance sender receiver _) rfl).bind
    intro answer
    cases answer <;> exact agree_pure _

theorem delegateAt_bind {β : Type} (depth : UInt32) {f g : Delegate → HostM β}
    (hf : ∀ e e', e.Alike validator e' → Agree validator (f e) (g e')) :
    Agree validator (c.delegateAt depth >>= f) (d.delegateAt depth >>= g) := by
  have hd := h.delegate
  unfold Caller.delegateAt
  generalize c.delegate = x at hd ⊢
  generalize d.delegate = y at hd ⊢
  cases hd with
  | none => exact fun s t hst => ⟨rfl, hst⟩
  | some he =>
    dsimp only
    rw [he.maxDepth]
    split
    · exact fun s t hst => ⟨rfl, hst⟩
    · rw [pure_bind, pure_bind]
      exact hf _ _ he

theorem callContract (target function functionLen params paramsLen fuel value : Int) :
    Agree validator (c.callContract target function functionLen params paramsLen fuel value)
      (d.callContract target function functionLen params paramsLen fuel value) := by
  apply h.call.bind
  intro call
  apply h.delegateAt_bind call.depth
  intro e e' he
  apply (h.readAddress target).bind
  intro target
  apply (h.readText function functionLen).bind
  intro function
  apply (h.read params paramsLen).bind
  intro params
  apply (unsigned fuel _).bind
  intro fuel
  apply (unsigned value _).bind
  intro value
  apply (consumeFuel fuel).bind
  intro _
  apply (sendValue _ _ value).bind
  intro sent
  cases sent with
  | false => exact (refundFuel fuel).bind fun _ => agree_pure _
  | true =>
    refine Agree.bind (fun s t hst => ?_) fun outcome => (refundFuel _).bind fun _ => ?_
    · obtain ⟨ho, hw⟩ := he.perform (call.nested target function params (.ofNat fuel)
        (.ofNat value)) hst.world
      exact ⟨congrArg Except.ok ho, { hst with world := hw }⟩
    · cases outcome.output <;> exact agree_pure _

omit h in
theorem runMeter (f : MeterFunction) (arg : Cell) :
    Agree validator (Caller.runMeter f arg) (Caller.runMeter f arg) := by
  cases f with
  | consume => exact (consumeFuel _).bind fun _ => agree_pure _
  | add => exact (addFuel _).bind fun _ => agree_pure _
  | refund => exact (refundFuel _).bind fun _ => agree_pure _
  | consumed =>
    intro s t hst
    unfold Caller.runMeter
    simp only [bind_apply, get_apply]
    rw [hst.guest]
    exact ⟨rfl, hst⟩
  | fail =>
    unfold Caller.runMeter
    dsimp only
    split
    · exact agree_throw _
    · split
      · exact agree_fail _
      · exact agree_throw _

theorem run (f : HostFunction) (args : List Cell) :
    Agree validator (f.run c args) (f.run d args) := by
  cases f with
  | writeLog => exact (h.writeLog _ _ _).bind fun _ => agree_pure _
  | getBalance => exact (h.getBalance _).bind fun _ => agree_pure _
  | sendBalance => exact (h.sendBalance _ _).bind fun _ => agree_pure _
  | getState => exact (h.getState _ _ _ _).bind fun _ => agree_pure _
  | putState => exact (h.putState _ _ _ _).bind fun _ => agree_pure _
  | deleteState => exact (h.deleteState _ _).bind fun _ => agree_pure _
  | setCallResult => exact (h.setCallResult _ _).bind fun _ => agree_pure _
  | remainingFuel => exact remainingFuel.bind fun _ => agree_pure _
  | deploy => exact (h.deploy _ _ _ _ _).bind fun _ => agree_pure _
  | callContract => exact h.callContract _ _ _ _ _ _ _
  | meter f => exact (runMeter f _).bind fun _ => agree_pure _

end Caller.Alike

end MeteredContracts
