import MeteredContracts.Proofs.HostArguments
import MeteredContracts.Proofs.Refusals

namespace MeteredContracts

open Wasm (Cell)

structure Ledger.Gains (l : Ledger) (a : Address) (id : ContractId) (l' : Ledger) : Prop where
  bound : l'.accounts.get? a = some id
  others : ∀ a', a' ≠ a → l'.accounts.get? a' = l.accounts.get? a'
  nonce : l'.nonce = l.nonce + 1
  balances : l'.balances = l.balances
  code : l'.code = l.code
  storage : l'.storage = l.storage

theorem Ledger.gains_newAccount {l : Ledger} {id : ContractId} (data : Bytes)
    (h : l.code.contains id = true) :
    (l.newAccount id data).1 = .ok (newAddress id data l.nonce) ∧
      l.Gains (newAddress id data l.nonce) id (l.newAccount id data).2 := by
  rw [newAccount, if_pos h]
  refine ⟨rfl, ?_, fun a' hne => ?_, rfl, rfl, rfl, rfl⟩
  · exact (l.accounts.get?_insert _ _ _).trans (if_pos rfl)
  · exact (l.accounts.get?_insert _ _ _).trans (if_neg hne)

def Service.Accepts (s : Service) (id : ContractId) : Prop :=
  s.outages.get? .newAccount = none ∧ s.ledger.code.contains id = true

namespace World

variable {w : World} {id : ContractId} (data : Bytes)

theorem ask_newAccount_of_accepts (h : w.service.Accepts id) :
    (w.ask (.newAccount id data)).1 = .ok (Ledger.newAddress id data w.service.ledger.nonce) ∧
      w.service.ledger.Gains (Ledger.newAddress id data w.service.ledger.nonce) id
        (w.ask (.newAccount id data)).2.service.ledger := by
  rw [ask_of_available h.1]
  exact Ledger.gains_newAccount data h.2

theorem ask_newAccount_of_not_accepts (h : ¬w.service.Accepts id) :
    (∃ e, (w.ask (.newAccount id data)).1 = .error e) ∧
      (w.ask (.newAccount id data)).2.service = w.service := by
  cases ho : w.service.outages.get? .newAccount with
  | some text =>
    rw [ask_of_outage (r := .newAccount id data) ho]
    exact ⟨⟨_, rfl⟩, rfl⟩
  | none =>
    have hcode : ¬w.service.ledger.code.contains id = true := fun hc => h ⟨ho, hc⟩
    rw [ask_of_available (r := .newAccount id data) ho]
    simp only [Ledger.serve, Ledger.newAccount, hcode]
    exact ⟨⟨_, rfl⟩, rfl⟩

end World

namespace HostCall

variable (h : HostCall)

structure Deploys (id data : Bytes) : Prop where
  served : h.served?.isSome
  id : h.given? 0 1 = some id
  data : h.given? 2 3 = some data

def AllOrNothing : Prop :=
  let before := h.scene.world.service
  let after := h.run.2.world.service
  (h.Returns (.ofInt32 0) ∧ ∃ id data, h.Deploys id data ∧
    let a := Ledger.newAddress ⟨id⟩ data before.ledger.nonce
    before.ledger.Gains a ⟨id⟩ after.ledger ∧
      h.scene.guest.memory.Written (h.word 4).toNat a.bytes h.run.2.guest.memory) ∨
  ((h.Fails ∨ h.Returns (.ofInt32 1)) ∧ after = before ∧
    h.run.2.guest.memory = h.scene.guest.memory)

/-- The ledger does what it is asked for, but there is no place for the address. -/
def Strands : Prop :=
  ∃ id data, h.Deploys id data ∧ h.scene.world.service.Accepts ⟨id⟩ ∧
    ¬h.scene.Fits h.caller (h.word 4) 33

variable {h} {id data : Bytes}

theorem run_deploy (hf : h.function = .deploy) : h.run =
    (h.caller.deploy (h.word 0) (h.word 1) (h.word 2) (h.word 3) (h.word 4) >>=
      fun n => pure (.values [.ofInt32 n])) h.scene := by
  rw [run, hf]
  rfl

theorem run_of_not_deploys (hf : h.function = .deploy) (hd : ∀ id data, ¬h.Deploys id data) :
    ∃ e, h.run = (.error (.host e), h.scene) := by
  rw [run_deploy hf, Caller.deploy, HostM.discard_bind]
  simp only [bind_assoc]
  -- the checks in the order in which the host makes them, all of them before it asks the ledger
  cases hs : h.served? with
  | none => exact call_bind_of_unserved hs _
  | some call =>
    rw [call_bind hs]
    cases hid : h.given? 0 1 with
    | none => exact read_bind_of_not_given hid _
    | some id =>
      rw [read_bind hid]
      cases hdata : h.given? 2 3 with
      | none => exact read_bind_of_not_given hdata _
      | some data => exact absurd ⟨Option.isSome_of_eq_some hs, hid, hdata⟩ (hd id data)

theorem Deploys.run_eq (hf : h.function = .deploy) (hd : h.Deploys id data) :
    h.run = match h.scene.world.ask (.newAccount ⟨id⟩ data) with
      | (.error _, w) => (.ok (.values [.ofInt32 1]), { h.scene with world := w })
      | (.ok a, w) => match h.caller.write (h.word 4) a.bytes { h.scene with world := w } with
        | (.ok _, s) => (.ok (.values [.ofInt32 0]), s)
        | (.error e, s) => (.error e, s) := by
  obtain ⟨call, hs⟩ := Option.isSome_iff_exists.mp hd.served
  rw [run_deploy hf, Caller.deploy, HostM.discard_bind]
  simp only [bind_assoc]
  rw [call_bind hs, read_bind hd.id, read_bind hd.data, HostM.bind_apply, HostM.ask_apply]
  dsimp only
  rcases h.scene.world.ask (.newAccount ⟨id⟩ data) with ⟨e | a, w⟩
  · rfl
  · simp only [HostM.bind_apply]
    rcases h.caller.write (h.word 4) a.bytes { h.scene with world := w } with ⟨e | u, s⟩ <;> rfl

theorem Deploys.of_not_accepts (hf : h.function = .deploy) (hd : h.Deploys id data)
    (ha : ¬h.scene.world.service.Accepts ⟨id⟩) :
    h.Returns (.ofInt32 1) ∧ h.run.2.world.service = h.scene.world.service ∧
      h.run.2.guest.memory = h.scene.guest.memory := by
  obtain ⟨⟨e, he⟩, hservice⟩ := h.scene.world.ask_newAccount_of_not_accepts data ha
  have hrun := hd.run_eq hf
  rcases hask : h.scene.world.ask (.newAccount ⟨id⟩ data) with ⟨answer, w⟩
  rw [hask] at he hservice hrun
  dsimp only at he hservice
  rw [he] at hrun
  rw [Returns, hrun]
  exact ⟨rfl, hservice, rfl⟩

theorem Deploys.of_accepts (hf : h.function = .deploy) (hd : h.Deploys id data)
    (ha : h.scene.world.service.Accepts ⟨id⟩) :
    let a := Ledger.newAddress ⟨id⟩ data h.scene.world.service.ledger.nonce
    h.scene.world.service.ledger.Gains a ⟨id⟩ h.run.2.world.service.ledger ∧
      ((h.scene.Fits h.caller (h.word 4) 33 ∧ h.Returns (.ofInt32 0) ∧
          h.scene.guest.memory.Written (h.word 4).toNat a.bytes h.run.2.guest.memory) ∨
        (¬h.scene.Fits h.caller (h.word 4) 33 ∧ h.Fails ∧
          h.run.2.guest.memory = h.scene.guest.memory)) := by
  intro a
  obtain ⟨hok, hgains⟩ := h.scene.world.ask_newAccount_of_accepts data ha
  have hrun := hd.run_eq hf
  rcases hask : h.scene.world.ask (.newAccount ⟨id⟩ data) with ⟨answer, w⟩
  rw [hask] at hok hgains hrun
  dsimp only at hok hgains
  rw [hok] at hrun
  dsimp only at hrun
  have hlength : a.bytes.length = 33 := a.length_eq
  cases h.caller.writes (h.word 4) a.bytes { h.scene with world := w } with
  | done hfits hshort hw =>
    rw [hw] at hrun
    rw [Returns, hrun]
    refine ⟨hgains, .inl ⟨?_, rfl, hfits.written⟩⟩
    rwa [hlength] at hfits
  | refused e hunfit hw =>
    rw [hlength] at hunfit
    rw [hw] at hrun
    rw [Fails, hrun]
    exact ⟨hgains, .inr ⟨fun hfits => absurd (hunfit hfits) (by decide), ⟨_, rfl⟩, rfl⟩⟩

theorem allOrNothing_of_not_strands (hf : h.function = .deploy) (hn : ¬h.Strands) :
    h.AllOrNothing := by
  by_cases hd : ∃ id data, h.Deploys id data
  · obtain ⟨id, data, hd⟩ := hd
    by_cases ha : h.scene.world.service.Accepts ⟨id⟩
    · obtain ⟨hgains, ⟨-, hreturns, hwritten⟩ | ⟨hunfit, -⟩⟩ := hd.of_accepts hf ha
      · exact .inl ⟨hreturns, id, data, hd, hgains, hwritten⟩
      · exact absurd ⟨id, data, hd, ha, hunfit⟩ hn
    · obtain ⟨hreturns, hsame⟩ := hd.of_not_accepts hf ha
      exact .inr ⟨.inr hreturns, hsame⟩
  · obtain ⟨e, he⟩ := run_of_not_deploys hf fun id data h => hd ⟨id, data, h⟩
    exact .inr ⟨.inl ⟨_, by rw [he]⟩, by rw [he], by rw [he]⟩

theorem Strands.fails (hf : h.function = .deploy) (hs : h.Strands) :
    h.Fails ∧ h.run.2.guest.memory = h.scene.guest.memory ∧
      ∃ id data, h.Deploys id data ∧ h.scene.world.service.ledger.Gains
        (Ledger.newAddress ⟨id⟩ data h.scene.world.service.ledger.nonce) ⟨id⟩
        h.run.2.world.service.ledger := by
  obtain ⟨id, data, hd, ha, hunfit⟩ := hs
  obtain ⟨hgains, ⟨hfits, -⟩ | ⟨-, hfails, hmemory⟩⟩ := hd.of_accepts hf ha
  · exact absurd hfits hunfit
  · exact ⟨hfails, hmemory, id, data, hd, hgains⟩

theorem AllOrNothing.not_gains (hn : h.AllOrNothing) (hfails : h.Fails) {a : Address}
    {id : ContractId} :
    ¬h.scene.world.service.ledger.Gains a id h.run.2.world.service.ledger := by
  intro hgains
  obtain ⟨hreturns, -⟩ | ⟨-, hsame, -⟩ := hn
  · exact not_fails hreturns hfails
  · have hnonce := hgains.nonce
    rw [hsame] at hnonce
    exact absurd (UInt64.left_eq_add.mp hnonce) (by decide)

end HostCall

/-- `deploy` does all or nothing, whatever it is asked for, unless the ledger creates an account
for which the guest has named no place to put its address. Then it fails, and the memory is as it
was, but the account is there, and the next one gets another address than it would have got. -/
theorem HostCall.deploy_all_or_nothing_iff (c : Caller) (args : List Cell) (s : Scene) :
    let h : HostCall := ⟨.deploy, c, args, s⟩
    (h.AllOrNothing ↔ ¬h.Strands) ∧
      (h.Strands ↔ h.Fails ∧ h.run.2.guest.memory = s.guest.memory ∧
        ∃ id data, h.Deploys id data ∧
          s.world.service.ledger.Gains
            (Ledger.newAddress ⟨id⟩ data s.world.service.ledger.nonce) ⟨id⟩
            h.run.2.world.service.ledger) := by
  intro h
  have hn : h.AllOrNothing → ¬h.Strands := by
    intro hall hs
    obtain ⟨hfails, -, id, data, -, hgains⟩ := hs.fails rfl
    exact hall.not_gains hfails hgains
  refine ⟨⟨hn, allOrNothing_of_not_strands rfl⟩, fun hs => hs.fails rfl, ?_⟩
  rintro ⟨hfails, -, id, data, -, hgains⟩
  by_contra hs
  exact (allOrNothing_of_not_strands rfl hs).not_gains hfails hgains

theorem HostCall.deploy_strands_an_account :
    let h : HostCall := ⟨.deploy, ⟨1, true, none⟩, [0, 1, 0, 0, .ofInt32 (-1)],
      .modest { ledger := { code := Table.empty.insert ⟨[1]⟩ [] } }⟩
    h.Fails ∧ ¬h.AllOrNothing ∧ h.scene.world.service.ledger.nonce = 0 ∧
      h.run.2.world.service.ledger.nonce = 1 ∧ h.run.2.world.service.ledger.accounts.size = 1 := by
  intro h
  have hdeploys : h.Deploys [1] [] := ⟨by decide, by decide +kernel, by decide +kernel⟩
  have hunfit : ¬h.scene.Fits h.caller (h.word 4) 33 := fun hfits => absurd hfits.2.1 (by decide)
  have hs : h.Strands := ⟨[1], [], hdeploys, ⟨rfl, rfl⟩, hunfit⟩
  obtain ⟨hfails, -, id, data, -, hgains⟩ := hs.fails rfl
  exact ⟨hfails, fun hall => hall.not_gains hfails hgains, rfl, by decide +kernel,
    by decide +kernel⟩

end MeteredContracts
