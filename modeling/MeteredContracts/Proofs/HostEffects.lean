import MeteredContracts.Proofs.HostRules

namespace MeteredContracts

open Wasm (Cell)

namespace HostM

variable {α β γ : Type} {f : Scene → γ}

def Keeps (f : Scene → γ) (x : HostM α) : Prop := ∀ s, f (x s).2 = f s

theorem Reads.keeps {x : HostM α} (hx : x.Reads) : x.Keeps f := fun s => congrArg f (hx s)

theorem Keeps.bind {x : HostM α} {g : α → HostM β} (hx : x.Keeps f) (hg : ∀ a, (g a).Keeps f) :
    Keeps f (x >>= g) := by
  intro s
  have hs := hx s
  rw [bind_apply]
  rcases hxs : x s with ⟨e | a, t⟩ <;> rw [hxs] at hs
  · exact hs
  · exact (hg a t).trans hs

theorem Keeps.bind_pure {x : HostM α} (hx : x.Keeps f) (g : α → β) :
    Keeps f (x >>= fun a => pure (g a)) := hx.bind fun _ => (reads_pure _).keeps

end HostM

namespace Caller

open HostM

variable (c : Caller) {γ : Type} {f : Scene → γ}

theorem keeps_writeLog (note : ∀ s e, f (s.note e) = f s) (level ptr len : Int) :
    (c.writeLog level ptr len).Keeps f := by
  intro s
  simp only [writeLog, bind_apply, get_apply]
  cases s.read c ptr len with
  | error e => exact note s _
  | ok bytes => exact note s _

theorem keeps_getBalance (ask : ∀ a, (ask (.getBalance a)).Keeps f) (account : Int) :
    (c.getBalance account).Keeps f := by
  rw [getBalance, discard_bind]
  apply c.reads_call.keeps.bind
  intro call
  apply (c.reads_readAddress account).keeps.bind
  intro a
  apply (ask a).bind
  intro answer
  cases answer with
  | ok amount => exact (reads_pure _).keeps
  | error e => exact (reads_fail _).keeps

theorem keeps_sendBalance (ask : ∀ a b n, (ask (.transferBalance a b n)).Keeps f)
    (receiver amount : Int) : (c.sendBalance receiver amount).Keeps f := by
  apply c.reads_call.keeps.bind
  intro call
  apply (c.reads_readAddress receiver).keeps.bind
  intro a
  split
  · exact (reads_fail _).keeps
  · apply (ask _ _ _).bind
    intro answer
    cases answer <;> exact (reads_pure _).keeps

theorem keeps_getState (ask : ∀ a key, (ask (.getState a key)).Keeps f)
    (write : ∀ ptr bs, (c.write ptr bs).Keeps f) (key keyLen out capacity : Int) :
    (c.getState key keyLen out capacity).Keeps f := by
  apply c.reads_call.keeps.bind
  intro call
  apply (c.reads_read key keyLen).keeps.bind
  intro key
  apply (ask _ _).bind
  intro answer
  match answer with
  | .error e => exact (reads_fail _).keeps
  | .ok none => exact (reads_pure _).keeps
  | .ok (some value) => exact (write _ _).bind_pure _

theorem keeps_putState (ask : ∀ a key value, (ask (.putState a key value)).Keeps f)
    (key keyLen value valueLen : Int) : (c.putState key keyLen value valueLen).Keeps f := by
  apply c.reads_call.keeps.bind
  intro call
  apply (c.reads_read key keyLen).keeps.bind
  intro key
  apply (c.reads_read value valueLen).keeps.bind
  intro value
  apply (ask _ _ _).bind
  intro answer
  cases answer with
  | ok _ => exact (reads_pure _).keeps
  | error e => exact (reads_fail _).keeps

theorem keeps_deleteState (ask : ∀ a key, (ask (.deleteState a key)).Keeps f)
    (key keyLen : Int) : (c.deleteState key keyLen).Keeps f := by
  apply c.reads_call.keeps.bind
  intro call
  apply (c.reads_read key keyLen).keeps.bind
  intro key
  apply (ask _ _).bind
  intro answer
  match answer with
  | .ok true => exact (reads_pure _).keeps
  | .ok false => exact (reads_pure _).keeps
  | .error e => exact (reads_fail _).keeps

theorem keeps_setCallResult (record : ∀ s bytes, f { s with result := some bytes } = f s)
    (ptr len : Int) : (c.setCallResult ptr len).Keeps f :=
  (c.reads_read ptr len).keeps.bind fun bytes s => record s bytes

theorem keeps_deploy (ask : ∀ id data, (ask (.newAccount id data)).Keeps f)
    (write : ∀ ptr bs, (c.write ptr bs).Keeps f) (id idLen data dataLen out : Int) :
    (c.deploy id idLen data dataLen out).Keeps f := by
  rw [deploy, discard_bind]
  apply c.reads_call.keeps.bind
  intro call
  apply (c.reads_read id idLen).keeps.bind
  intro id
  apply (c.reads_read data dataLen).keeps.bind
  intro data
  apply (ask _ _).bind
  intro answer
  cases answer with
  | error e => exact (reads_pure _).keeps
  | ok a => exact (write _ _).bind_pure _

end Caller

namespace HostFunction

def MayAsk : HostFunction → Request → Prop
  | .getBalance, .getBalance _ => True
  | .sendBalance, .transferBalance .. => True
  | .getState, .getState .. => True
  | .putState, .putState .. => True
  | .deleteState, .deleteState .. => True
  | .deploy, .newAccount .. => True
  | _, _ => False

theorem keeps {γ : Type} {f : Scene → γ} {g : HostFunction} (hg : g ∈ standard)
    (hn : g ≠ .callContract) (c : Caller) (note : ∀ s e, f (s.note e) = f s)
    (ask : ∀ r, g.MayAsk r → (HostM.ask r).Keeps f)
    (write : g = .getState ∨ g = .deploy → ∀ ptr bs, (c.write ptr bs).Keeps f)
    (record : g = .setCallResult → ∀ s bytes, f { s with result := some bytes } = f s)
    (args : List Cell) : (g.run c args).Keeps f := by
  cases g with
  | callContract => exact absurd rfl hn
  | meter => simp [standard] at hg
  | remainingFuel => exact fun s => rfl
  | writeLog => exact (c.keeps_writeLog note _ _ _).bind_pure _
  | getBalance => exact (c.keeps_getBalance (fun _ => ask _ trivial) _).bind_pure _
  | sendBalance => exact (c.keeps_sendBalance (fun _ _ _ => ask _ trivial) _ _).bind_pure _
  | getState =>
    exact (c.keeps_getState (fun _ _ => ask _ trivial) (write (.inl rfl)) _ _ _ _).bind_pure _
  | putState => exact (c.keeps_putState (fun _ _ _ => ask _ trivial) _ _ _ _).bind_pure _
  | deleteState => exact (c.keeps_deleteState (fun _ _ => ask _ trivial) _ _).bind_pure _
  | setCallResult => exact (c.keeps_setCallResult (record rfl) _ _).bind_pure _
  | deploy =>
    exact (c.keeps_deploy (fun _ _ => ask _ trivial) (write (.inr rfl)) _ _ _ _ _).bind_pure _

end HostFunction

end MeteredContracts
