import MeteredContracts.Proofs.Cells
import MeteredContracts.Proofs.FuelConservation
import MeteredContracts.Proofs.GuestWrites
import MeteredContracts.Proofs.UnrunCalls

namespace MeteredContracts

open Wasm (Cell)

structure Ledger.Agrees (l l' : Ledger) : Prop where
  balance : ∀ a, l'.balance a = l.balance a
  accounts : l'.accounts = l.accounts
  code : l'.code = l.code
  storage : l'.storage = l.storage
  nonce : l'.nonce = l.nonce

namespace Ledger

variable {l : Ledger}

theorem Agrees.refl (l : Ledger) : l.Agrees l := ⟨fun _ => rfl, rfl, rfl, rfl, rfl⟩

theorem Agrees.trans {l' l'' : Ledger} (h : l.Agrees l') (h' : l'.Agrees l'') : l.Agrees l'' where
  balance a := (h'.balance a).trans (h.balance a)
  accounts := h'.accounts.trans h.accounts
  code := h'.code.trans h.code
  storage := h'.storage.trans h.storage
  nonce := h'.nonce.trans h.nonce

theorem Agrees.of_eq {l' : Ledger} (h : l' = l) : l.Agrees l' := h ▸ .refl l

theorem agrees_transfer {sender receiver : Address} {amount : UInt64} {e : LedgerError}
    (h : (l.transfer sender receiver amount).1 = .error e) :
    l.Agrees (l.transfer sender receiver amount).2 := by
  have hbalance := balance_transfer_error h
  obtain ⟨balances, heq⟩ := l.transfer_balances sender receiver amount
  rw [heq] at hbalance ⊢
  exact ⟨hbalance, rfl, rfl, rfl, rfl⟩

theorem agrees_serve {r : Request} {e : LedgerError} (h : (l.serve r).1 = .error e) :
    l.Agrees (l.serve r).2 := by
  cases r with
  | transferBalance sender receiver amount => exact agrees_transfer h
  | newAccount id data =>
    simp only [serve, newAccount] at h ⊢
    split at h
    · cases h
    next hc =>
      rw [if_neg hc]
      exact .refl l
  | getAccountContract | getContractBytes => exact .refl l
  | getBalance | getState | putState | deleteState | setAccountContract | setContractBytes =>
    cases h

theorem agrees_delete {a : Address} {key : Bytes} (h : (l.delete a key).1 = false) :
    l.Agrees (l.delete a key).2 :=
  ⟨fun _ => rfl, rfl, rfl, Table.erase_of_contains_eq_false h, rfl⟩

end Ledger

theorem World.agrees_ask {w : World} {r : Request} {e : LedgerError} (h : (w.ask r).1 = .error e) :
    w.service.ledger.Agrees (w.ask r).2.service.ledger := by
  obtain hserve | ⟨-, hledger⟩ := w.ask_reaches r
  · have hagrees := Ledger.agrees_serve (l := w.service.ledger) (r := r) (e := e)
    rw [hserve] at hagrees
    exact hagrees h
  · exact .of_eq hledger

theorem Commission.agrees_transfer {o : Commission} {w w' : World}
    (h : o.transfer w = (false, w')) : w.service.ledger.Agrees w'.service.ledger := by
  unfold transfer at h
  split at h
  · cases h
  · split at h
    · cases h
    next hask =>
      cases h
      have hagrees := World.agrees_ask (congrArg Prod.fst hask)
      rwa [hask] at hagrees

theorem Commission.settled_none {o : Commission} {m : Meter} (hfuel : o.fuel ≤ m.remaining)
    (hm : m.remaining ≤ maxFuel) : (o.settled m none).remaining = m.remaining ∧
      (o.settled m none).consumed = m.consumed := by
  have hremaining : (o.settled m none).remaining = m.remaining :=
    (o.remaining_settled m none hfuel hm (Nat.zero_le _)).2
  refine ⟨hremaining, ?_⟩
  unfold Meter.consumed
  rw [hremaining]
  rfl

structure Scene.Untouched (s t : Scene) : Prop where
  ledger : s.world.service.ledger.Agrees t.world.service.ledger
  memory : t.guest.memory = s.guest.memory
  result : t.result = s.result
  remaining : t.guest.meter.remaining = s.guest.meter.remaining
  granted : t.guest.meter.granted = s.guest.meter.granted
  consumed : t.guest.meter.consumed = s.guest.meter.consumed

namespace Scene

variable {s t u : Scene}

theorem Untouched.trans (h : s.Untouched t) (h' : t.Untouched u) : s.Untouched u where
  ledger := h.ledger.trans h'.ledger
  memory := h'.memory.trans h.memory
  result := h'.result.trans h.result
  remaining := h'.remaining.trans h.remaining
  granted := h'.granted.trans h.granted
  consumed := h'.consumed.trans h.consumed

theorem Untouched.of_world {w : World} (h : s.world.service.ledger.Agrees w.service.ledger) :
    s.Untouched { s with world := w } := ⟨h, rfl, rfl, rfl, rfl, rfl⟩

theorem Untouched.refl (s : Scene) : s.Untouched s := .of_world (.refl _)

theorem Untouched.of_eq (h : t = s) : s.Untouched t := h ▸ .refl s

end Scene

namespace HostM

variable {α β : Type} {P : β → Prop}

def SparesUnless (P : α → Prop) (x : HostM α) : Prop :=
  ∀ s, s.Untouched (x s).2 ∨ ∃ a, (x s).1 = .ok a ∧ P a

theorem Reads.spares {x : HostM β} (hx : x.Reads) : x.SparesUnless P :=
  fun s => .inl (.of_eq (hx s))

theorem Reads.bind_spares {x : HostM α} {f : α → HostM β} (hx : x.Reads)
    (hf : ∀ a, (f a).SparesUnless P) : SparesUnless P (x >>= f) := by
  intro s
  rw [bind_apply, hx.apply_eq s]
  cases (x s).1 with
  | ok a => exact hf a s
  | error e => exact .inl (.refl s)

theorem ask_bind_spares {r : Request} {f : Except LedgerError r.Answer → HostM β}
    (herror : ∀ e, (f (.error e)).Reads)
    (hok : ∀ (l : Ledger) a, (l.serve r).1 = .ok a →
      l.Agrees (l.serve r).2 ∧ (f (.ok a)).SparesUnless P ∨
        ∀ s, ∃ b, (f (.ok a) s).1 = .ok b ∧ P b) :
    SparesUnless P (ask r >>= f) := by
  intro s
  have hreaches := s.world.ask_reaches r
  have hfailed := fun e => s.world.agrees_ask (r := r) (e := e)
  rw [bind_apply, ask_apply]
  dsimp only
  cases ha : (s.world.ask r).1 with
  | error e =>
    rw [herror e]
    exact .inl (.of_world (hfailed e ha))
  | ok a =>
    rw [ha] at hreaches
    obtain hserve | ⟨⟨e, he⟩, -⟩ := hreaches
    · obtain ⟨hagrees, hf⟩ | hf := hok s.world.service.ledger a (congrArg Prod.fst hserve)
      · rw [hserve] at hagrees
        exact (hf _).imp_left (Scene.Untouched.of_world hagrees).trans
      · exact .inr (hf _)
    · cases he

end HostM

namespace Caller

open HostM

variable (c : Caller)

theorem sparesUnless_getBalance (account : Int) :
    (c.getBalance account).SparesUnless fun _ => False := by
  rw [getBalance, discard_bind]
  apply c.reads_call.bind_spares
  intro call
  apply (c.reads_readAddress account).bind_spares
  intro a
  exact ask_bind_spares (fun e => reads_fail _) fun l _ _ => .inl ⟨.refl l, (reads_pure _).spares⟩

theorem sparesUnless_sendBalance (receiver amount : Int) :
    (c.sendBalance receiver amount).SparesUnless (· = 0) := by
  apply c.reads_call.bind_spares
  intro call
  apply (c.reads_readAddress receiver).bind_spares
  intro a
  split
  · exact (reads_fail _).spares
  · exact ask_bind_spares (fun e => reads_pure _) fun l _ _ => .inr fun s => ⟨0, rfl, rfl⟩

theorem sparesUnless_getState (key keyLen out capacity : Int) :
    (c.getState key keyLen out capacity).SparesUnless
      fun n => 0 ≤ n ∧ n ≤ Int32.maxValue.toInt := by
  apply c.reads_call.bind_spares
  intro call
  apply (c.reads_read key keyLen).bind_spares
  intro key
  refine ask_bind_spares (fun e => reads_fail _) fun l a ha => .inl ⟨.refl l, ?_⟩
  match a with
  | none => exact (reads_pure _).spares
  | some value =>
    intro s
    dsimp only
    rw [bind_apply]
    cases c.writes out (value.take capacity.toNat) s with
    | done _ _ hw =>
      rw [hw]
      refine .inr ⟨_, rfl, ?_, Int.min_le_right _ _⟩
      exact Int.le_min.mpr ⟨Int.natCast_nonneg _, by decide⟩
    | refused e _ hw =>
      rw [hw]
      exact .inl (.refl s)

theorem sparesUnless_putState (key keyLen value valueLen : Int) :
    (c.putState key keyLen value valueLen).SparesUnless fun _ => True := by
  apply c.reads_call.bind_spares
  intro call
  apply (c.reads_read key keyLen).bind_spares
  intro key
  apply (c.reads_read value valueLen).bind_spares
  intro value
  exact ask_bind_spares (fun e => reads_fail _) fun l _ _ => .inr fun s => ⟨_, rfl, trivial⟩

theorem sparesUnless_deleteState (key keyLen : Int) :
    (c.deleteState key keyLen).SparesUnless (· = 1) := by
  apply c.reads_call.bind_spares
  intro call
  apply (c.reads_read key keyLen).bind_spares
  intro key
  refine ask_bind_spares (fun e => reads_fail _) fun l a ha => ?_
  match a with
  | true => exact .inr fun s => ⟨1, rfl, rfl⟩
  | false => exact .inl ⟨Ledger.agrees_delete (Except.ok.inj ha), (reads_pure _).spares⟩

theorem sparesUnless_setCallResult (ptr len : Int) :
    (c.setCallResult ptr len).SparesUnless fun _ => True :=
  (c.reads_read ptr len).bind_spares fun _ _ => .inr ⟨_, rfl, trivial⟩

theorem untouched_writeLog (level ptr len : Int) (s : Scene) :
    s.Untouched (c.writeLog level ptr len s).2 := by
  simp only [writeLog, bind_apply, get_apply]
  cases s.read c ptr len with
  | error e => exact .of_world (.refl _)
  | ok bytes => exact .of_world (.refl _)

end Caller

namespace HostCall

variable (h : HostCall)

def Fails : Prop := ∃ e, h.run.1 = .error e

def Returns (r : Cell) : Prop := h.run.1 = .ok (.values [r])

def HandsOver : Prop :=
  ∃ o, h.commission = .ok o ∧ o.fuel ≤ h.scene.guest.meter.remaining ∧
    (o.transfer h.scene.world).1 = true

def Declines : Prop :=
  match h.function with
  | .writeLog => ∃ e, h.run.2.world.journal = h.scene.world.journal.push (.lostLine e)
  | .getBalance | .putState | .setCallResult => h.Fails
  | .sendBalance => h.Fails ∨ h.Returns (.ofInt32 1)
  | .getState => h.Fails ∨ h.Returns (.ofInt32 (-1))
  | .deleteState => h.Fails ∨ h.Returns (.ofInt32 0)
  | .callContract => (h.Fails ∨ h.Returns (.ofInt64 (-1))) ∧ ¬h.HandsOver
  | .remainingFuel | .deploy | .meter _ => False

variable {h}

theorem untouched_of_spares {β : Type} {P : β → Prop} {x : HostM β} {g : β → Reply}
    (hx : x.SparesUnless P) (hrun : h.run = (x >>= fun b => pure (g b)) h.scene)
    (hno : ∀ b, P b → h.run.1 ≠ .ok (g b)) : h.scene.Untouched h.run.2 := by
  obtain hs | ⟨b, hb, hp⟩ := hx h.scene
  · rw [hrun, HostM.bind_pure_snd]
    exact hs
  · refine absurd ?_ (hno b hp)
    rw [hrun, HostM.bind_apply]
    rcases hxs : x h.scene with ⟨r, t⟩
    rw [hxs] at hb
    cases hb
    rfl

theorem not_fails {r : Reply} (hok : h.run.1 = .ok r) : ¬h.Fails := by
  rintro ⟨e, he⟩
  cases he.symm.trans hok

theorem not_fails_or_returns {r r' : Cell} (hok : h.run.1 = .ok (.values [r])) (hne : r ≠ r') :
    ¬(h.Fails ∨ h.Returns r') := by
  rintro (hfails | hr)
  · exact not_fails hok hfails
  · cases hok.symm.trans hr
    exact hne rfl

theorem untouched_callContract (hf : h.function = .callContract)
    (hm : h.scene.guest.meter.remaining ≤ maxFuel) (hn : ¬h.HandsOver) :
    (h.Fails ∨ h.Returns (.ofInt64 (-1))) ∧ h.scene.Untouched h.run.2 := by
  have hrun := h.run_callContract hf
  cases ho : h.commission with
  | error e =>
    rw [ho] at hrun
    exact ⟨.inl ⟨e, by rw [hrun]⟩, .of_eq (by rw [hrun])⟩
  | ok o =>
    rw [ho] at hrun
    dsimp only at hrun
    rw [o.carryOut_apply] at hrun
    split at hrun
    next => exact ⟨.inl ⟨_, by rw [hrun]⟩, .of_eq (by rw [hrun])⟩
    next hfuel =>
      have hfuel := Nat.not_lt.mp hfuel
      rcases ht : o.transfer h.scene.world with ⟨_ | _, w⟩
      · -- the debit is made before the transfer, and settling with no callee pays it all back
        unfold Commission.outcome at hrun
        rw [ht] at hrun
        obtain ⟨hremaining, hconsumed⟩ := Commission.settled_none hfuel hm
        rw [Returns, hrun]
        exact ⟨.inr rfl, o.agrees_transfer ht, rfl, rfl, hremaining, rfl, hconsumed⟩
      · exact absurd ⟨o, ho, hfuel, by rw [ht]⟩ hn

theorem Declines.untouched (hd : h.Declines) (hm : h.scene.guest.meter.remaining ≤ maxFuel) :
    h.scene.Untouched h.run.2 := by
  by_cases hf : h.function = .callContract
  · -- the one function that does something first and takes it back: debit, transfer and refund
    have hn : ¬h.HandsOver := by
      unfold Declines at hd
      rw [hf] at hd
      exact hd.2
    exact (untouched_callContract hf hm hn).2
  obtain ⟨function, c, args, s⟩ := h
  cases function with
  | callContract => exact absurd rfl hf
  | remainingFuel | deploy | meter => exact hd.elim
  | writeLog =>
    simp only [run, HostFunction.run, HostM.bind_pure_snd]
    exact c.untouched_writeLog _ _ _ s
  | getBalance => exact untouched_of_spares (c.sparesUnless_getBalance _) rfl fun _ => False.elim
  | putState =>
    exact untouched_of_spares (c.sparesUnless_putState _ _ _ _) rfl fun _ _ hok => not_fails hok hd
  | setCallResult =>
    exact untouched_of_spares (c.sparesUnless_setCallResult _ _) rfl fun _ _ hok => not_fails hok hd
  | sendBalance =>
    refine untouched_of_spares (c.sparesUnless_sendBalance _ _) rfl fun b hb hok => ?_
    subst hb
    exact not_fails_or_returns hok (by decide) hd
  | deleteState =>
    refine untouched_of_spares (c.sparesUnless_deleteState _ _) rfl fun b hb hok => ?_
    subst hb
    exact not_fails_or_returns hok (by decide) hd
  | getState =>
    refine untouched_of_spares (c.sparesUnless_getState _ _ _ _) rfl fun n hn hok => ?_
    have hne : Cell.ofInt32 n ≠ .ofInt32 (-1) := fun heq => by
      have hint := congrArg Cell.int32 heq
      rw [Cell.int32_ofInt32_of_nonneg hn.1 hn.2,
        Cell.int32_ofInt32 (by decide) (by decide)] at hint
      omega
    exact not_fails_or_returns hok hne hd

end HostCall

/-- Whatever a guest asks its host for: where the host fails or refuses, it has changed nothing. The
same holds of a nested call that is not handed over, which always fails or returns `-1`. Here the
guest's fuel has to be a number of 64 bits, as it is in every frame. -/
theorem HostCall.declined_without_effect :
    (∀ h : HostCall, h.scene.guest.meter.remaining ≤ maxFuel → h.Declines →
      h.scene.Untouched h.run.2) ∧
    (∀ h : HostCall, h.function = .callContract → h.scene.guest.meter.remaining ≤ maxFuel →
      ¬h.HandsOver → h.Declines) ∧
    ∀ (p : Platform) (fr : Frame) (h : HostCall), fr.Serves p h ∨ fr.Starts p h →
      h.scene.guest.meter.remaining ≤ maxFuel := by
  refine ⟨fun h hm hd => hd.untouched hm, fun h hf hm hn => ?_, fun p fr h hh => ?_⟩
  · unfold Declines
    rw [hf]
    exact ⟨(untouched_callContract hf hm hn).1, hn⟩
  · obtain hh | hh := hh
    · exact hh.spends.le_maxFuel
    · exact hh.spends.le_maxFuel

def Scene.modest (service : Service) : Scene where
  guest := ⟨⟨⟨(1 :: List.replicate 63 0).toArray⟩, 1⟩, #[], .new 100⟩
  result := none
  world := { service, registry := Table.empty.insert 1 { fuel := 100 } }

theorem HostCall.declined_without_effect_of_the_poor :
    let h : HostCall := ⟨.callContract, ⟨1, true, some ⟨10, fun _ w => (⟨.ok [], 0⟩, w)⟩⟩,
      [0, 0, 0, 0, 0, 7, 5], .modest {}⟩
    h.Declines ∧ h.scene.Untouched h.run.2 ∧ h.run.2.guest.meter.remaining = 100 := by
  intro h
  have hfuel : h.scene.guest.meter.remaining ≤ maxFuel := by decide
  have hrefused :
      h.commission.toOption.map (fun o => (o.transfer h.scene.world).1) = some false := by
    decide +kernel
  have hn : ¬h.HandsOver := by
    rintro ⟨o, ho, -, hsent⟩
    rw [ho] at hrefused
    exact Bool.false_ne_true ((Option.some.inj hrefused).symm.trans hsent)
  have hd : h.Declines := declined_without_effect.2.1 h rfl hfuel hn
  have huntouched := declined_without_effect.1 h hfuel hd
  exact ⟨hd, huntouched, huntouched.remaining⟩

end MeteredContracts
