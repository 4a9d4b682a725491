import Mathlib.Data.List.Nodup
import Mathlib.Data.Set.Function
import MeteredContracts.Proofs.ContextEncoding
import MeteredContracts.Proofs.Deployments
import MeteredContracts.Proofs.Requests

namespace MeteredContracts

theorem Bytes.ofNatLE_toNat_inj {m n : UInt64} :
    ofNatLE 8 m.toNat = ofNatLE 8 n.toNat ↔ m = n := by
  refine ⟨fun h => ?_, fun h => h ▸ rfl⟩
  have hread (n : UInt64) : toNatLE (ofNatLE 8 n.toNat) = n.toNat := by
    rw [toNatLE_ofNatLE]
    exact Nat.mod_eq_of_lt n.toNat_lt
  rw [← UInt64.toNat_inj, ← hread m, h, hread]

def Request.created? : (r : Request) → Except LedgerError r.Answer → Option Address
  | .newAccount _ _, .ok a => some a
  | _, _ => none

namespace Ledger

def creations (l : Ledger) : List Request → List Address
  | [] => []
  | r :: rs => (r.created? (l.serve r).1).toList ++ (l.serve r).2.creations rs

def preimage? (l : Ledger) : Request → Option Bytes
  | .newAccount id data =>
    if l.code.contains id then some (id.bytes ++ data ++ Bytes.ofNatLE 8 l.nonce.toNat) else none
  | _ => none

def preimages (l : Ledger) : List Request → List Bytes
  | [] => []
  | r :: rs => (l.preimage? r).toList ++ (l.serve r).2.preimages rs

def hashed (p : Bytes) : Address := .ofParts 0 (Sha256.hash p)

section Step

variable {l : Ledger} {r : Request} {p : Bytes}

theorem gains_serve (h : l.preimage? r = some p) :
    r.created? (l.serve r).1 = some (hashed p) ∧
      (∃ front, p = front ++ Bytes.ofNatLE 8 l.nonce.toNat) ∧
      ∃ id data, r = .newAccount id data ∧ l.Gains (hashed p) id (l.serve r).2 := by
  cases r with
  | newAccount id data =>
    rw [preimage?] at h
    split at h
    next hcode =>
      cases h
      obtain ⟨hok, hgains⟩ := gains_newAccount data hcode
      refine ⟨?_, ⟨_, rfl⟩, id, data, rfl, hgains⟩
      rw [serve, hok]
      rfl
    next => cases h
  | getBalance | transferBalance | getState | putState | deleteState | getAccountContract
  | getContractBytes | setAccountContract | setContractBytes => cases h

theorem serve_of_preimage?_eq_none (h : l.preimage? r = none) :
    r.created? (l.serve r).1 = none ∧ (l.serve r).2.nonce = l.nonce ∧
      ∀ a, (∀ id, r ≠ .setAccountContract a id) →
        (l.serve r).2.accounts.get? a = l.accounts.get? a := by
  cases r with
  | newAccount id data =>
    rw [preimage?] at h
    split at h
    next => cases h
    next hcode =>
      rw [serve, newAccount, if_neg hcode]
      exact ⟨rfl, rfl, fun _ _ => rfl⟩
  | transferBalance sender receiver amount =>
    obtain ⟨balances, h⟩ := l.transfer_balances sender receiver amount
    rw [serve, h]
    exact ⟨rfl, rfl, fun _ _ => rfl⟩
  | setAccountContract account id =>
    refine ⟨rfl, rfl, fun a ha => ?_⟩
    have hne : a ≠ account := fun he => ha id (he ▸ rfl)
    exact (l.accounts.get?_insert _ _ _).trans (if_neg hne)
  | getBalance | getState | putState | deleteState | getAccountContract | getContractBytes
  | setContractBytes => exact ⟨rfl, rfl, fun _ _ => rfl⟩

end Step

theorem creations_eq (l : Ledger) (rs : List Request) :
    l.creations rs = (l.preimages rs).map hashed := by
  induction rs generalizing l with
  | nil => rfl
  | cons r rs ih =>
    rw [creations, preimages, List.map_append, ih]
    cases h : l.preimage? r with
    | none =>
      rw [(serve_of_preimage?_eq_none h).1]
      rfl
    | some p =>
      rw [(gains_serve h).1]
      rfl

theorem exists_nonce (l : Ledger) {rs : List Request} {p : Bytes} (hp : p ∈ l.preimages rs) :
    ∃ i < (l.preimages rs).length, ∃ front,
      p = front ++ Bytes.ofNatLE 8 (l.nonce + UInt64.ofNat i).toNat := by
  induction rs generalizing l with
  | nil => cases hp
  | cons r rs ih =>
    unfold preimages at hp ⊢
    cases h : l.preimage? r with
    | none =>
      rw [h] at hp
      obtain ⟨i, hi, front, rfl⟩ := ih _ hp
      refine ⟨i, hi, front, ?_⟩
      rw [(serve_of_preimage?_eq_none h).2.1]
    | some q =>
      rw [h] at hp
      obtain ⟨-, ⟨front, hfront⟩, _, _, -, hgains⟩ := gains_serve h
      obtain rfl | hp := List.mem_cons.mp hp
      · exact ⟨0, Nat.succ_pos _, front, by rw [hfront]; simp⟩
      · obtain ⟨i, hi, front, rfl⟩ := ih _ hp
        refine ⟨i + 1, Nat.succ_lt_succ hi, front, ?_⟩
        rw [hgains.nonce, UInt64.ofNat_add, UInt64.add_assoc, UInt64.add_comm 1]
        rfl

theorem nodup_preimages (l : Ledger) {rs : List Request}
    (h : (l.preimages rs).length ≤ UInt64.size) : (l.preimages rs).Nodup := by
  induction rs generalizing l with
  | nil => exact .nil
  | cons r rs ih =>
    unfold preimages at h ⊢
    cases hr : l.preimage? r with
    | none =>
      rw [hr] at h
      exact ih _ h
    | some q =>
      rw [hr] at h
      replace h : (preimages (l.serve r).2 rs).length + 1 ≤ 2 ^ 64 := h
      obtain ⟨-, ⟨front, hfront⟩, _, _, -, hgains⟩ := gains_serve hr
      refine List.nodup_cons.mpr ⟨fun hq => ?_, ih _ (Nat.le_of_succ_le h)⟩
      -- a later string ends with a later nonce
      obtain ⟨i, hi, front', hfront'⟩ := exists_nonce _ hq
      have hlength : ∀ m n : UInt64,
          (Bytes.ofNatLE 8 m.toNat).length = (Bytes.ofNatLE 8 n.toNat).length := fun _ _ => by
        rw [Bytes.length_ofNatLE, Bytes.length_ofNatLE]
      have hends := (List.append_inj' (hfront.symm.trans hfront') (hlength _ _)).2
      rw [Bytes.ofNatLE_toNat_inj, hgains.nonce, UInt64.add_assoc, UInt64.left_eq_add] at hends
      have hlt : i < UInt64.size := Nat.lt_of_lt_of_le hi (Nat.le_of_succ_le h)
      have hzero : (1 + i) % 2 ^ 64 = 0 := by
        have htoNat := congrArg UInt64.toNat hends
        rwa [UInt64.toNat_add, UInt64.toNat_ofNat_of_lt' hlt] at htoNat
      omega

theorem creations_append (l : Ledger) (rs rs' : List Request) :
    l.creations (rs ++ rs') = l.creations rs ++ (l.serveAll rs).creations rs' := by
  induction rs generalizing l with
  | nil => rfl
  | cons r rs ih =>
    rw [List.cons_append, creations, ih, creations, List.append_assoc]
    rfl

theorem accounts_serveAll (l : Ledger) {rs : List Request} {a : Address}
    (hcreated : a ∉ l.creations rs) (hset : ∀ id, .setAccountContract a id ∉ rs) :
    (l.serveAll rs).accounts.get? a = l.accounts.get? a := by
  induction rs generalizing l with
  | nil => rfl
  | cons r rs ih =>
    rw [creations, List.mem_append, not_or] at hcreated
    have hrest := ih (l.serve r).2 hcreated.2 fun id h => hset id (List.mem_cons_of_mem _ h)
    refine hrest.trans ?_
    cases hr : l.preimage? r with
    | none =>
      obtain ⟨-, -, hothers⟩ := serve_of_preimage?_eq_none hr
      exact hothers a fun id h => hset id (h ▸ List.mem_cons_self)
    | some p =>
      obtain ⟨hanswer, -, _, _, -, hgains⟩ := gains_serve hr
      refine hgains.others a fun h => hcreated.1 ?_
      rw [hanswer, h]
      exact List.mem_singleton_self _

theorem nodup_creations (l : Ledger) {rs : List Request}
    (hfew : (l.creations rs).length ≤ UInt64.size)
    (hcollide : Set.InjOn Sha256.hash {p | p ∈ l.preimages rs}) : (l.creations rs).Nodup := by
  rw [creations_eq] at hfew ⊢
  rw [List.length_map] at hfew
  refine List.Nodup.map_on (fun p hp q hq h => hcollide hp hq ?_) (l.nodup_preimages hfew)
  exact List.tail_eq_of_cons_eq (congrArg Address.bytes h)

theorem typeByte_of_mem_creations {l : Ledger} {rs : List Request} {a : Address}
    (ha : a ∈ l.creations rs) : a.typeByte = 0 := by
  rw [creations_eq] at ha
  obtain ⟨p, -, rfl⟩ := List.mem_map.mp ha
  rfl

section NewAccount

variable {l : Ledger} {id : ContractId} {data : Bytes}

theorem serve_newAccount (hcode : l.code.contains id = true) :
    (l.serve (.newAccount id data)).1 = .ok (newAddress id data l.nonce) :=
  (gains_newAccount data hcode).1

theorem serve_newAccount_of_unknown (hcode : l.code.contains id = false) :
    l.serve (.newAccount id data) = (.error (.contractNotFound id.toText), l) :=
  if_neg (Bool.eq_false_iff.mp hcode)

theorem newAccount_eq_error_iff :
    (∃ e, (l.serve (.newAccount id data)).1 = .error e) ↔ l.code.contains id = false := by
  constructor
  · rintro ⟨e, he⟩
    refine Bool.eq_false_iff.mpr fun hcode => ?_
    cases (serve_newAccount hcode).symm.trans he
  · intro hcode
    exact ⟨_, congrArg Prod.fst (serve_newAccount_of_unknown hcode)⟩

theorem accountContract_newAccount {done : List Request} {a : Address}
    (hok : (l.serve (.newAccount id data)).1 = .ok a)
    (hnodup : (l.creations (.newAccount id data :: done)).Nodup)
    (hset : ∀ id', .setAccountContract a id' ∉ done) :
    ((l.serve (.newAccount id data)).2.serveAll done).accountContract a = .ok id := by
  have hcode : l.code.contains id = true := by
    refine eq_true_of_ne_false fun hcode => ?_
    rw [serve_newAccount_of_unknown hcode] at hok
    cases hok
  obtain ⟨-, hgains⟩ := gains_newAccount data hcode
  cases hok.symm.trans (serve_newAccount hcode)
  rw [creations, hok] at hnodup
  have hlater := (List.nodup_cons.mp hnodup).1
  have hkept := accounts_serveAll (l.serve (.newAccount id data)).2 hlater hset
  simp only [accountContract, hkept.trans hgains.bound]

end NewAccount

/-- No two of the accounts that a ledger creates have the same address, and each of them is bound to
its contract from its creation until it is bound to another one, unless the hash collides. A request
for an account of an unknown contract leaves the ledger as it is. -/
theorem created_accounts_distinct_and_bound (l : Ledger) (rs : List Request)
    (hfew : (l.creations rs).length ≤ UInt64.size)
    (hcollide : Set.InjOn Sha256.hash {p | p ∈ l.preimages rs}) :
    (l.creations rs).Nodup ∧ (∀ a ∈ l.creations rs, a.typeByte = 0) ∧
    ∀ before id data after, rs = before ++ .newAccount id data :: after →
      let now := l.serveAll before
      (∀ a, (now.serve (.newAccount id data)).1 = .ok a → ∀ done, done <+: after →
        (∀ id', .setAccountContract a id' ∉ done) →
          ((now.serve (.newAccount id data)).2.serveAll done).accountContract a = .ok id) ∧
      ((∃ e, (now.serve (.newAccount id data)).1 = .error e) ↔ now.code.contains id = false) ∧
      ∀ e, (now.serve (.newAccount id data)).1 = .error e →
        (now.serve (.newAccount id data)).2 = now := by
  have hnodup := l.nodup_creations hfew hcollide
  refine ⟨hnodup, fun a ha => typeByte_of_mem_creations ha, ?_⟩
  rintro before id data after rfl now
  refine ⟨fun a hok done hdone hset => ?_, newAccount_eq_error_iff, fun e he => ?_⟩
  · obtain ⟨rest, rfl⟩ := hdone
    rw [creations_append] at hnodup
    have hnow := hnodup.of_append_right
    rw [← List.cons_append, creations_append] at hnow
    exact accountContract_newAccount hok hnow.of_append_left hset
  · rw [serve_newAccount_of_unknown (newAccount_eq_error_iff.mp ⟨e, he⟩)]

theorem created_accounts_distinct_and_bound_where_bytes_coincide :
    let l : Ledger := {}
    let before : List Request := [.setContractBytes ⟨[1, 2]⟩ [], .setContractBytes ⟨[1]⟩ [],
      .newAccount ⟨[9]⟩ [], .newAccount ⟨[1, 2]⟩ [3]]
    let after : List Request := [.newAccount ⟨[]⟩ [1, 2, 3], .newAccount ⟨[1, 2]⟩ [3]]
    let rs := before ++ .newAccount ⟨[1]⟩ [2, 3] :: after
    let a := newAddress ⟨[1]⟩ [2, 3] 1
    (l.creations rs).length = 3 ∧ Set.InjOn Sha256.hash {p | p ∈ l.preimages rs} ∧
      (l.creations rs).Nodup ∧ (l.serveAll rs).accountContract a = .ok ⟨[1]⟩ := by
  intro l before after rs a
  have hlength : (l.creations rs).length = 3 := by decide +kernel
  have hcollide : Set.InjOn Sha256.hash {p | p ∈ l.preimages rs} := by
    have h : ∀ p ∈ l.preimages rs, ∀ q ∈ l.preimages rs,
        Sha256.hash p = Sha256.hash q → p = q := by decide +kernel
    exact fun p hp q hq => h p hp q hq
  obtain ⟨hnodup, -, hall⟩ := created_accounts_distinct_and_bound l rs (by rw [hlength]; decide)
    hcollide
  obtain ⟨hbound, -⟩ := hall before ⟨[1]⟩ [2, 3] after rfl
  have hkept := hbound a (by decide +kernel) after (List.prefix_refl _) (by simp [after])
  exact ⟨hlength, hcollide, hnodup, hkept⟩

end Ledger

end MeteredContracts
