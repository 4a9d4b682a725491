import MeteredContracts.Proofs.Cells
import MeteredContracts.Proofs.HostArguments
import MeteredContracts.Proofs.HostEffects
import MeteredContracts.Proofs.Refusals

namespace MeteredContracts

open Wasm (Cell)

def Request.Writes : Request → Prop
  | .putState .. | .deleteState .. => True
  | _ => False

def World.stored (w : World) (a : Address) (key : Bytes) : Option Bytes :=
  w.service.ledger.stored a key

namespace Ledger

theorem stored_put_eq (l : Ledger) (a b : Address) (key key' value : Bytes) :
    (l.put a key value).stored b key' =
      if (b, key') = (a, key) then some value else l.stored b key' :=
  Table.get?_insert l.storage (a, key) (b, key') value

theorem stored_delete_eq (l : Ledger) (a b : Address) (key key' : Bytes) :
    (l.delete a key).2.stored b key' = if (b, key') = (a, key) then none else l.stored b key' :=
  Table.get?_erase l.storage (a, key) (b, key')

theorem storage_serve {l : Ledger} {r : Request} (hr : ¬r.Writes) :
    (l.serve r).2.storage = l.storage := by
  cases r with
  | putState | deleteState => exact absurd trivial hr
  | transferBalance sender receiver amount =>
    obtain ⟨balances, heq⟩ := l.transfer_balances sender receiver amount
    show (l.transfer sender receiver amount).2.storage = _
    rw [heq]
  | newAccount id data =>
    simp only [serve, newAccount]
    split <;> rfl
  | getBalance | getState | getAccountContract | getContractBytes | setAccountContract
  | setContractBytes => rfl

end Ledger

theorem World.storage_ask {w : World} {r : Request} (hr : ¬r.Writes) :
    (w.ask r).2.service.ledger.storage = w.service.ledger.storage := by
  obtain hserve | ⟨-, hledger⟩ := w.ask_reaches r
  · have hstorage := Ledger.storage_serve (l := w.service.ledger) hr
    rwa [hserve] at hstorage
  · rw [hledger]

theorem Commission.storage_transfer (o : Commission) (w : World) :
    (o.transfer w).2.service.ledger.storage = w.service.ledger.storage := by
  have hask := w.storage_ask (r := .transferBalance o.sponsor.contract o.target (.ofNat o.value)) id
  unfold transfer
  split
  · rfl
  · split
    next heq => rwa [heq] at hask
    next heq => rwa [heq] at hask

namespace HostM

def KeepsStorage {α : Type} (x : HostM α) : Prop :=
  ∀ s, (x s).2.world.service.ledger.storage = s.world.service.ledger.storage

theorem keepsStorage_ask {r : Request} (hr : ¬r.Writes) : (ask r).KeepsStorage := fun _ =>
  World.storage_ask hr

end HostM

theorem Caller.keepsStorage_write (c : Caller) (ptr : Int) (bs : Bytes) :
    (c.write ptr bs).KeepsStorage := by
  intro s
  cases c.writes ptr bs s with
  | done _ _ h => rw [h]; rfl
  | refused _ _ h => rw [h]

theorem HostFunction.keepsStorage {f : HostFunction} (hf : f ∈ standard) (hn : f ≠ .callContract)
    (hp : f ≠ .putState) (hd : f ≠ .deleteState) (c : Caller) (args : List Cell) :
    (f.run c args).KeepsStorage := by
  have ask (r : Request) (hr : f.MayAsk r) : (HostM.ask r).KeepsStorage := by
    refine HostM.keepsStorage_ask fun hw => ?_
    cases r with
    | putState => cases f <;> first | exact hr | exact hp rfl
    | deleteState => cases f <;> first | exact hr | exact hd rfl
    | _ => exact hw
  exact keeps (f := fun s => s.world.service.ledger.storage) hf hn c (fun _ _ => rfl) ask
    (fun _ => c.keepsStorage_write) (fun _ _ _ => rfl) args

namespace HostCall

variable (h : HostCall)

/-- What becomes of the value under a key, if the guest has changed it: `some none` stands for one
that it has deleted. -/
def writes? (key : Bytes) : Option (Option Bytes) :=
  if h.given? 0 1 = some key then
    match h.run.1, h.function with
    | .ok _, .putState => some (h.given? 2 3)
    | .ok _, .deleteState => some none
    | _, _ => none
  else none

variable {h} {call : Call} {key value : Bytes}

theorem writes?_of_error {e : Failure} (he : h.run.1 = .error e) (key : Bytes) :
    h.writes? key = none := by
  simp only [writes?, he, ite_self]

theorem writes?_of_other (hp : h.function ≠ .putState) (hd : h.function ≠ .deleteState)
    (key : Bytes) : h.writes? key = none := by
  unfold writes?
  split
  · split
    next hf => exact absurd hf hp
    next hf => exact absurd hf hd
    next => rfl
  · rfl

theorem run_putState_eq (hf : h.function = .putState) : h.run =
    (h.caller.putState (h.word 0) (h.word 1) (h.word 2) (h.word 3) >>=
      fun _ => pure (.values [])) h.scene := by
  rw [run, hf]
  rfl

theorem run_deleteState_eq (hf : h.function = .deleteState) : h.run =
    (h.caller.deleteState (h.word 0) (h.word 1) >>= fun n => pure (.values [.ofInt32 n]))
      h.scene := by
  rw [run, hf]
  rfl

theorem run_getState_eq (hf : h.function = .getState) : h.run =
    (h.caller.getState (h.word 0) (h.word 1) (h.word 2) (h.word 3) >>=
      fun n => pure (.values [.ofInt32 n])) h.scene := by
  rw [run, hf]
  rfl

theorem run_putState (hf : h.function = .putState) (hs : h.served? = some call)
    (hk : h.given? 0 1 = some key) (hv : h.given? 2 3 = some value) :
    h.run = match h.scene.world.ask (.putState call.contract key value) with
      | (.ok _, w) => (.ok (.values []), { h.scene with world := w })
      | (.error e, w) => (.error (.host (.ledger e)), { h.scene with world := w }) := by
  rw [run_putState_eq hf, Caller.putState]
  simp only [bind_assoc]
  rw [call_bind hs, read_bind hk, read_bind hv, HostM.bind_apply, HostM.ask_apply]
  dsimp only
  rcases h.scene.world.ask (.putState call.contract key value) with ⟨e | _, w⟩ <;> rfl

theorem run_deleteState (hf : h.function = .deleteState) (hs : h.served? = some call)
    (hk : h.given? 0 1 = some key) :
    h.run = match h.scene.world.ask (.deleteState call.contract key) with
      | (.ok there, w) =>
        (.ok (.values [.ofInt32 (if there then 1 else 0)]), { h.scene with world := w })
      | (.error e, w) => (.error (.host (.ledger e)), { h.scene with world := w }) := by
  rw [run_deleteState_eq hf, Caller.deleteState]
  simp only [bind_assoc]
  rw [call_bind hs, read_bind hk, HostM.bind_apply, HostM.ask_apply]
  dsimp only
  rcases h.scene.world.ask (.deleteState call.contract key) with ⟨e | _ | _, w⟩ <;> rfl

theorem run_getState (hf : h.function = .getState) (hs : h.served? = some call)
    (hk : h.given? 0 1 = some key) :
    h.run = match h.scene.world.ask (.getState call.contract key) with
      | (.ok none, w) => (.ok (.values [.ofInt32 (-1)]), { h.scene with world := w })
      | (.ok (some value), w) =>
        match h.caller.write (h.word 2) (value.take (h.word 3).toNat)
            { h.scene with world := w } with
        | (.ok _, s) =>
          (.ok (.values [.ofInt32 (min value.length Int32.maxValue.toInt)]), s)
        | (.error e, s) => (.error e, s)
      | (.error e, w) => (.error (.host (.ledger e)), { h.scene with world := w }) := by
  rw [run_getState_eq hf, Caller.getState]
  simp only [bind_assoc]
  rw [call_bind hs, read_bind hk, HostM.bind_apply, HostM.ask_apply]
  dsimp only
  rcases h.scene.world.ask (.getState call.contract key) with ⟨e | _ | value, w⟩
  · rfl
  · rfl
  · simp only [HostM.bind_apply]
    rcases h.caller.write (h.word 2) (value.take (h.word 3).toNat)
      { h.scene with world := w } with ⟨e | u, s⟩ <;> rfl

theorem run_putState_of_unread (hf : h.function = .putState) (hs : h.served? = some call)
    (hg : h.given? 0 1 = none ∨ h.given? 2 3 = none) :
    ∃ e, h.run = (.error (.host e), h.scene) := by
  rw [run_putState_eq hf, Caller.putState]
  simp only [bind_assoc]
  rw [call_bind hs]
  cases hk : h.given? 0 1 with
  | none => exact read_bind_of_not_given hk _
  | some key =>
    rw [read_bind hk]
    exact read_bind_of_not_given (hg.resolve_left (by rw [hk]; nofun)) _

theorem run_getState_of_unread (hf : h.function = .getState) (hs : h.served? = some call)
    (hg : h.given? 0 1 = none) : ∃ e, h.run = (.error (.host e), h.scene) := by
  rw [run_getState_eq hf, Caller.getState]
  simp only [bind_assoc]
  rw [call_bind hs]
  exact read_bind_of_not_given hg _

theorem run_deleteState_of_unread (hf : h.function = .deleteState) (hs : h.served? = some call)
    (hg : h.given? 0 1 = none) : ∃ e, h.run = (.error (.host e), h.scene) := by
  rw [run_deleteState_eq hf, Caller.deleteState]
  simp only [bind_assoc]
  rw [call_bind hs]
  exact read_bind_of_not_given hg _

theorem run_storage_of_unserved
    (hf : h.function ∈ [HostFunction.getState, .putState, .deleteState]) (hs : h.served? = none) :
    ∃ e, h.run = (.error (.host e), h.scene) := by
  simp only [List.mem_cons, List.not_mem_nil, or_false] at hf
  obtain hf | hf | hf := hf
  · rw [run_getState_eq hf, Caller.getState]
    simp only [bind_assoc]
    exact call_bind_of_unserved hs _
  · rw [run_putState_eq hf, Caller.putState]
    simp only [bind_assoc]
    exact call_bind_of_unserved hs _
  · rw [run_deleteState_eq hf, Caller.deleteState]
    simp only [bind_assoc]
    exact call_bind_of_unserved hs _

variable (h) in
def StoresFor (owner : Address) : Prop :=
  ∀ a key, h.run.2.world.stored a key =
    (if a = owner then h.writes? key else none).getD (h.scene.world.stored a key)

theorem storesFor_of_same {owner : Address} (hwrites : ∀ key, h.writes? key = none)
    (hsame : h.run.2.world.service.ledger.storage = h.scene.world.service.ledger.storage) :
    h.StoresFor owner := by
  intro a key
  rw [hwrites, ite_self, World.stored, Ledger.stored, hsame]
  rfl

theorem storesFor_of_error {owner : Address} {e : Failure} {w : World}
    (hrun : h.run = (.error e, { h.scene with world := w }))
    (hw : w.service = h.scene.world.service) : h.StoresFor owner := by
  refine storesFor_of_same (writes?_of_error (e := e) (by rw [hrun])) ?_
  rw [hrun]
  exact congrArg (·.ledger.storage) hw

theorem ite_eq_getD {owner a : Address} {key' key : Bytes} {after before : Option Bytes} :
    (if (a, key) = (owner, key') then after else before) =
      (if a = owner then if key' = key then some after else none else none).getD before := by
  by_cases ha : a = owner <;> by_cases hk : key' = key <;> simp [ha, hk, eq_comm (a := key)]

theorem storesFor_putState (hf : h.function = .putState) (hs : h.served? = some call) :
    h.StoresFor call.contract := by
  by_cases hg : h.given? 0 1 = none ∨ h.given? 2 3 = none
  · obtain ⟨e, hrun⟩ := run_putState_of_unread hf hs hg
    exact storesFor_of_error hrun rfl
  rw [not_or] at hg
  obtain ⟨key', hk⟩ := Option.ne_none_iff_exists'.mp hg.1
  obtain ⟨value, hv⟩ := Option.ne_none_iff_exists'.mp hg.2
  have hrun := run_putState hf hs hk hv
  cases ho : h.scene.world.service.outages.get? .putState with
  | some text =>
    rw [World.ask_of_outage (r := .putState call.contract key' value) ho] at hrun
    exact storesFor_of_error hrun rfl
  | none =>
    rw [World.ask_of_available (r := .putState call.contract key' value) ho] at hrun
    intro a key
    have hwrites : h.writes? key = if key' = key then some (some value) else none := by
      simp only [writes?, hk, hrun, hf, hv, Option.some.injEq, Ledger.serve]
    rw [hwrites, hrun]
    show (h.scene.world.service.ledger.put call.contract key' value).stored a key = _
    rw [Ledger.stored_put_eq, ite_eq_getD]
    rfl

theorem storesFor_deleteState (hf : h.function = .deleteState) (hs : h.served? = some call) :
    h.StoresFor call.contract := by
  cases hk : h.given? 0 1 with
  | none =>
    obtain ⟨e, hrun⟩ := run_deleteState_of_unread hf hs hk
    exact storesFor_of_error hrun rfl
  | some key' =>
    have hrun := run_deleteState hf hs hk
    cases ho : h.scene.world.service.outages.get? .deleteState with
    | some text =>
      rw [World.ask_of_outage (r := .deleteState call.contract key') ho] at hrun
      exact storesFor_of_error hrun rfl
    | none =>
      rw [World.ask_of_available (r := .deleteState call.contract key') ho] at hrun
      intro a key
      have hwrites : h.writes? key = if key' = key then some none else none := by
        simp only [writes?, hk, hrun, hf, Option.some.injEq, Ledger.serve]
      rw [hwrites, hrun]
      show (h.scene.world.service.ledger.delete call.contract key').2.stored a key = _
      rw [Ledger.stored_delete_eq, ite_eq_getD]
      rfl

theorem storesFor (hf : h.function ∈ HostFunction.standard) (hn : h.function ≠ .callContract)
    (hs : h.served? = some call) : h.StoresFor call.contract := by
  by_cases hp : h.function = .putState
  · exact storesFor_putState hp hs
  by_cases hd : h.function = .deleteState
  · exact storesFor_deleteState hd hs
  exact storesFor_of_same (writes?_of_other hp hd)
    (HostFunction.keepsStorage hf hn hp hd h.caller h.args h.scene)

variable (h) in
structure Asks (f : HostFunction) (m : Method) (key : Bytes) : Prop where
  function : h.function = f
  key : h.given? 0 1 = some key
  available : h.scene.world.service.outages.get? m = none

variable (h) in
structure Obeys (held : Bytes → Option Bytes) : Prop where
  absent : ∀ key, h.Asks .getState .getState key → held key = none →
    h.Returns (.ofInt32 (-1)) ∧ h.run.2.guest.memory = h.scene.guest.memory
  present : ∀ key value, h.Asks .getState .getState key → held key = some value →
    let copied := value.take (h.word 3).toNat
    (h.scene.Fits h.caller (h.word 2) copied.length →
      (∃ r, h.Returns r ∧ r.int32 = value.length) ∧
        h.scene.guest.memory.Written (h.word 2).toNat copied h.run.2.guest.memory) ∧
    (¬h.scene.Fits h.caller (h.word 2) copied.length →
      h.Fails ∧ h.run.2.guest.memory = h.scene.guest.memory)
  deleted : ∀ key, h.Asks .deleteState .deleteState key →
    h.Returns (.ofInt32 (if (held key).isSome then 1 else 0))
  put : ∀ key value, h.Asks .putState .putState key → h.given? 2 3 = some value →
    h.run.1 = .ok (.values [])

theorem Asks.returns_absent (ha : h.Asks .getState .getState key) (hs : h.served? = some call)
    (hv : h.scene.world.stored call.contract key = none) :
    h.Returns (.ofInt32 (-1)) ∧ h.run.2.guest.memory = h.scene.guest.memory := by
  have hrun := run_getState ha.function hs ha.key
  rw [World.ask_of_available (r := .getState call.contract key) ha.available] at hrun
  simp only [Ledger.serve, show h.scene.world.service.ledger.stored _ _ = _ from hv] at hrun
  rw [Returns, hrun]
  exact ⟨rfl, rfl⟩

theorem Asks.returns_present (ha : h.Asks .getState .getState key) (hs : h.served? = some call)
    (hv : h.scene.world.stored call.contract key = some value)
    (hshort : value.length ≤ Int32.maxValue.toInt) :
    let copied := value.take (h.word 3).toNat
    (h.scene.Fits h.caller (h.word 2) copied.length →
      (∃ r, h.Returns r ∧ r.int32 = value.length) ∧
        h.scene.guest.memory.Written (h.word 2).toNat copied h.run.2.guest.memory) ∧
    (¬h.scene.Fits h.caller (h.word 2) copied.length →
      h.Fails ∧ h.run.2.guest.memory = h.scene.guest.memory) := by
  intro copied
  have hrun := run_getState ha.function hs ha.key
  rw [World.ask_of_available (r := .getState call.contract key) ha.available] at hrun
  simp only [Ledger.serve, show h.scene.world.service.ledger.stored _ _ = _ from hv] at hrun
  -- the write does not look at the world, of which the request has been noted
  generalize World.mk _ _ _ _ _ _ _ = w at hrun
  cases h.caller.writes (h.word 2) copied { h.scene with world := w } with
  | done hfits _ hw =>
    rw [hw] at hrun
    have hlength : (Cell.ofInt32 (min value.length Int32.maxValue.toInt)).int32 = value.length := by
      rw [Int.min_eq_left hshort]
      exact Cell.int32_ofInt32_of_nonneg (Int.natCast_nonneg _) hshort
    refine ⟨fun _ => ⟨⟨_, by rw [Returns, hrun], hlength⟩, ?_⟩, fun hunfit => absurd hfits hunfit⟩
    rw [hrun]
    exact hfits.written
  | refused e hunfit hw =>
    rw [hw] at hrun
    have hcopied : copied.length ≤ value.length := List.length_take_le' _ _
    refine ⟨fun hfits => ?_, fun _ => ⟨⟨_, by rw [hrun]⟩, by rw [hrun]⟩⟩
    have hlong := hunfit hfits
    omega

theorem Asks.returns_deleted (ha : h.Asks .deleteState .deleteState key)
    (hs : h.served? = some call) :
    h.Returns (.ofInt32 (if (h.scene.world.stored call.contract key).isSome then 1 else 0)) := by
  have hrun := run_deleteState ha.function hs ha.key
  rw [World.ask_of_available (r := .deleteState call.contract key) ha.available] at hrun
  rw [Returns, hrun]
  rfl

theorem Asks.returns_put (ha : h.Asks .putState .putState key) (hs : h.served? = some call)
    (hv : h.given? 2 3 = some value) : h.run.1 = .ok (.values []) := by
  have hrun := run_putState ha.function hs ha.key hv
  rw [World.ask_of_available (r := .putState call.contract key value) ha.available] at hrun
  rw [hrun]
  rfl

theorem obeys {held : Bytes → Option Bytes} (hs : h.served? = some call)
    (hheld : ∀ key, h.scene.world.stored call.contract key = held key)
    (hshort : ∀ key value, held key = some value → value.length ≤ Int32.maxValue.toInt) :
    h.Obeys held where
  absent key ha hv := ha.returns_absent hs ((hheld key).trans hv)
  present key value ha hv :=
    ha.returns_present hs ((hheld key).trans hv) (hshort key value hv)
  deleted key ha := by
    rw [← hheld]
    exact ha.returns_deleted hs
  put key value ha hv := ha.returns_put hs hv

theorem length_of_given {i j : Nat} {bytes : Bytes} (hg : h.given? i j = some bytes) :
    bytes.length ≤ Int32.maxValue.toInt := by
  obtain ⟨-, hg⟩ := Option.ite_none_right_eq_some.mp hg
  obtain ⟨⟨-, hlen⟩, hread⟩ := Option.ite_none_right_eq_some.mp hg
  have hword : h.word j ≤ Int32.maxValue.toInt := Int32.toInt_le _
  have hlength : bytes.length ≤ (h.word j).toNat := by
    rw [Wasm.Memory.read?_eq] at hread
    split at hread
    · cases hread
      exact List.length_take_le _ _
    · cases hread
  omega

theorem length_of_writes? (hw : h.writes? key = some (some value)) :
    value.length ≤ Int32.maxValue.toInt := by
  unfold writes? at hw
  split at hw
  · split at hw
    · exact length_of_given (Option.some.inj hw)
    · cases hw
    · cases hw
  · cases hw

end HostCall

end MeteredContracts
