import MeteredContracts.Sandbox.HostFunction

/-!
What host functions do to a scene, one rule for each thing that they can do. A relation that allows
these is kept by every standard host function but nested calls, which run other guests.
-/

namespace MeteredContracts

def Request.MadeBy (a : Address) : Request → Prop
  | .getBalance _ | .newAccount .. => True
  | .transferBalance sender .. => sender = a
  | .getState account _ | .putState account .. | .deleteState account _ => account = a
  | _ => False

namespace HostM

variable {α β : Type}

def Reads (x : HostM α) : Prop := ∀ s, (x s).2 = s

theorem Reads.apply_eq {x : HostM α} (hx : x.Reads) (s : Scene) : x s = ((x s).1, s) :=
  Prod.ext rfl (hx s)

theorem Reads.bind {x : HostM α} {f : α → HostM β} (hx : x.Reads) (hf : ∀ a, (f a).Reads) :
    Reads (x >>= f) := by
  intro s
  rw [bind_apply, hx.apply_eq s]
  cases (x s).1 with
  | ok a => exact hf a s
  | error e => rfl

theorem reads_pure (a : α) : Reads (pure a : HostM α) := fun _ => rfl

theorem reads_fail (e : HostError) : Reads (fail e : HostM α) := fun _ => rfl

theorem reads_ofExcept (r : Except HostError α) : (ofExcept r).Reads := by
  cases r <;> exact fun _ => rfl

theorem reads_look (f : Scene → Except HostError α) :
    Reads (do ofExcept (f (← get)) : HostM α) :=
  Reads.bind (fun _ => rfl) fun s => reads_ofExcept (f s)

theorem look_fst_eq_ok {f : Scene → Except HostError α} {s : Scene} {a : α}
    (h : ((do ofExcept (f (← get)) : HostM α) s).1 = .ok a) : f s = .ok a := by
  change (ofExcept (f s) s).1 = .ok a at h
  cases hf : f s with
  | ok b =>
    rw [hf] at h
    cases h
    rfl
  | error e =>
    rw [hf] at h
    cases h

theorem Reads.bind_keeps {R : Scene → Scene → Prop} {x : HostM α} {f : α → HostM β} {s : Scene}
    (hx : x.Reads) (hs : R s s) (hf : ∀ a, (x s).1 = .ok a → R s (f a s).2) :
    R s ((x >>= f) s).2 := by
  rw [bind_apply, hx.apply_eq s]
  cases h : (x s).1 with
  | ok a => exact hf a h
  | error e => exact hs

theorem Reads.bind_fst_eq_ok {x : HostM α} {f : α → HostM β} {s : Scene} {b : β}
    (hx : x.Reads) (h : ((x >>= f) s).1 = .ok b) : ∃ a, (x s).1 = .ok a ∧ (f a s).1 = .ok b := by
  rw [bind_apply, hx.apply_eq s] at h
  cases ha : (x s).1 with
  | ok a =>
    rw [ha] at h
    exact ⟨a, rfl, h⟩
  | error e =>
    rw [ha] at h
    cases h

theorem bind_pure_snd (x : HostM α) (g : α → β) (s : Scene) :
    ((x >>= fun a => pure (g a)) s).2 = (x s).2 := by
  rw [bind_apply]
  rcases x s with ⟨_ | _, _⟩ <;> rfl

theorem discard_bind (x : HostM α) (f : PUnit → HostM β) :
    (discard x >>= f) = x >>= fun _ => f ⟨⟩ :=
  bind_map_left (Function.const α PUnit.unit) x f

theorem get_apply (s : Scene) : (get : HostM Scene) s = (.ok s, s) := rfl

theorem ask_apply (r : Request) (s : Scene) :
    ask r s = (.ok (s.world.ask r).1, { s with world := (s.world.ask r).2 }) := rfl

end HostM

namespace Caller

variable (c : Caller)

theorem reads_call : c.call.Reads :=
  HostM.reads_look fun s => Registry.lookup s.world.registry c.sandbox

theorem call_fst_eq_ok {s : Scene} {call : Call} (h : (c.call s).1 = .ok call) :
    Registry.lookup s.world.registry c.sandbox = .ok call := HostM.look_fst_eq_ok h

theorem reads_read (ptr len : Int) : (c.read ptr len).Reads :=
  HostM.reads_look fun s => s.read c ptr len

theorem reads_readAddress (ptr : Int) : (c.readAddress ptr).Reads := by
  apply (c.reads_read ptr 33).bind
  intro bs
  split
  · exact HostM.reads_pure _
  · exact HostM.reads_fail _

theorem reads_readText (ptr len : Int) : (c.readText ptr len).Reads := by
  apply (c.reads_read ptr len).bind
  intro bs
  split
  · exact HostM.reads_pure _
  · exact HostM.reads_fail _

structure Allows (R : Scene → Scene → Prop) : Prop where
  refl : ∀ s, R s s
  trans : ∀ {s t u}, R s t → R t u → R s u
  note : ∀ s e, R s (s.note e)
  ask : ∀ s call r, Registry.lookup s.world.registry c.sandbox = .ok call →
    r.MadeBy call.contract → R s { s with world := (s.world.ask r).2 }
  overwrite : ∀ s start bs, R s (s.overwrite start bs)
  record : ∀ s bytes, R s { s with result := some bytes }

namespace Allows

variable {c} {R : Scene → Scene → Prop} (hR : c.Allows R)

include hR

theorem sceneWrite (s : Scene) (ptr : Int) (bs : Bytes) : R s (s.write c ptr bs).2 := by
  unfold Scene.write
  split
  · split
    · exact hR.refl s
    · split
      · exact hR.refl s
      · exact hR.overwrite s _ _
  · exact hR.refl s

theorem write (ptr : Int) (bs : Bytes) (s : Scene) : R s (c.write ptr bs s).2 := by
  have h := hR.sceneWrite s ptr bs
  unfold Caller.write
  split
  next heq => rwa [heq] at h
  next heq => rwa [heq] at h

theorem ask_bind {β : Type} {s : Scene} {call : Call} {r : Request}
    {f : Except LedgerError r.Answer → HostM β}
    (hl : Registry.lookup s.world.registry c.sandbox = .ok call) (hm : r.MadeBy call.contract)
    (hf : ∀ answer t, R t (f answer t).2) : R s ((HostM.ask r >>= f) s).2 := by
  rw [HostM.bind_apply, HostM.ask_apply]
  exact hR.trans (hR.ask s call r hl hm) (hf _ _)

theorem writeLog (level ptr len : Int) (s : Scene) : R s (c.writeLog level ptr len s).2 := by
  simp only [Caller.writeLog, HostM.bind_apply, HostM.get_apply]
  cases s.read c ptr len with
  | error e => exact hR.note s _
  | ok bytes => exact hR.note s _

theorem getBalance (account : Int) (s : Scene) : R s (c.getBalance account s).2 := by
  rw [Caller.getBalance, HostM.discard_bind]
  apply c.reads_call.bind_keeps (hR.refl s)
  intro call hc
  apply (c.reads_readAddress account).bind_keeps (hR.refl s)
  intro a _
  refine hR.ask_bind (c.call_fst_eq_ok hc) trivial fun answer t => ?_
  cases answer <;> exact hR.refl t

theorem sendBalance (receiver amount : Int) (s : Scene) :
    R s (c.sendBalance receiver amount s).2 := by
  apply c.reads_call.bind_keeps (hR.refl s)
  intro call hc
  apply (c.reads_readAddress receiver).bind_keeps (hR.refl s)
  intro a _
  split
  · exact hR.refl s
  · refine hR.ask_bind (c.call_fst_eq_ok hc) rfl fun answer t => ?_
    cases answer <;> exact hR.refl t

theorem getState (key keyLen out capacity : Int) (s : Scene) :
    R s (c.getState key keyLen out capacity s).2 := by
  apply c.reads_call.bind_keeps (hR.refl s)
  intro call hc
  apply (c.reads_read key keyLen).bind_keeps (hR.refl s)
  intro key _
  refine hR.ask_bind (c.call_fst_eq_ok hc) rfl fun answer t => ?_
  match answer with
  | .error e => exact hR.refl t
  | .ok none => exact hR.refl t
  | .ok (some value) =>
    simp only [HostM.bind_pure_snd]
    exact hR.write out _ t

theorem putState (key keyLen value valueLen : Int) (s : Scene) :
    R s (c.putState key keyLen value valueLen s).2 := by
  apply c.reads_call.bind_keeps (hR.refl s)
  intro call hc
  apply (c.reads_read key keyLen).bind_keeps (hR.refl s)
  intro key _
  apply (c.reads_read value valueLen).bind_keeps (hR.refl s)
  intro value _
  refine hR.ask_bind (c.call_fst_eq_ok hc) rfl fun answer t => ?_
  cases answer <;> exact hR.refl t

theorem deleteState (key keyLen : Int) (s : Scene) : R s (c.deleteState key keyLen s).2 := by
  apply c.reads_call.bind_keeps (hR.refl s)
  intro call hc
  apply (c.reads_read key keyLen).bind_keeps (hR.refl s)
  intro key _
  refine hR.ask_bind (c.call_fst_eq_ok hc) rfl fun answer t => ?_
  match answer with
  | .ok true => exact hR.refl t
  | .ok false => exact hR.refl t
  | .error e => exact hR.refl t

theorem setCallResult (ptr len : Int) (s : Scene) : R s (c.setCallResult ptr len s).2 :=
  (c.reads_read ptr len).bind_keeps (hR.refl s) fun bytes _ => hR.record s bytes

theorem deploy (id idLen data dataLen out : Int) (s : Scene) :
    R s (c.deploy id idLen data dataLen out s).2 := by
  rw [Caller.deploy, HostM.discard_bind]
  apply c.reads_call.bind_keeps (hR.refl s)
  intro call hc
  apply (c.reads_read id idLen).bind_keeps (hR.refl s)
  intro id _
  apply (c.reads_read data dataLen).bind_keeps (hR.refl s)
  intro data _
  refine hR.ask_bind (c.call_fst_eq_ok hc) trivial fun answer t => ?_
  cases answer with
  | error e => exact hR.refl t
  | ok a =>
    simp only [HostM.bind_pure_snd]
    exact hR.write out _ t

theorem run {f : HostFunction} (hf : f ∈ HostFunction.standard) (args : List Wasm.Cell) (s : Scene)
    (hn : f = .callContract → R s (f.run c args s).2) : R s (f.run c args s).2 := by
  cases f with
  | callContract => exact hn rfl
  | meter f => simp [HostFunction.standard] at hf
  | remainingFuel => exact hR.refl s
  | writeLog =>
    simp only [HostFunction.run, HostM.bind_pure_snd]
    exact hR.writeLog _ _ _ s
  | getBalance =>
    simp only [HostFunction.run, HostM.bind_pure_snd]
    exact hR.getBalance _ s
  | sendBalance =>
    simp only [HostFunction.run, HostM.bind_pure_snd]
    exact hR.sendBalance _ _ s
  | getState =>
    simp only [HostFunction.run, HostM.bind_pure_snd]
    exact hR.getState _ _ _ _ s
  | putState =>
    simp only [HostFunction.run, HostM.bind_pure_snd]
    exact hR.putState _ _ _ _ s
  | deleteState =>
    simp only [HostFunction.run, HostM.bind_pure_snd]
    exact hR.deleteState _ _ s
  | setCallResult =>
    simp only [HostFunction.run, HostM.bind_pure_snd]
    exact hR.setCallResult _ _ s
  | deploy =>
    simp only [HostFunction.run, HostM.bind_pure_snd]
    exact hR.deploy _ _ _ _ _ s

end Allows

end Caller

end MeteredContracts
