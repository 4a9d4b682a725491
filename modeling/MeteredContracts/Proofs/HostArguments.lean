import MeteredContracts.Proofs.Contexts
import MeteredContracts.Proofs.GuestWrites

namespace MeteredContracts

namespace World

variable {w : World} {r : Request}

theorem ask_of_outage {text : String} (h : w.service.outages.get? r.method = some text) :
    w.ask r = (.error (.backend text), w.note (.request r)) := by
  simp only [ask, Service.ask, h]
  rfl

theorem ask_of_available (h : w.service.outages.get? r.method = none) :
    w.ask r = ((w.service.ledger.serve r).1, { w.note (.request r) with
      service := { w.service with ledger := (w.service.ledger.serve r).2 } }) := by
  simp only [ask, Service.ask, h]

end World

namespace Scene

theorem read_eq_ok_iff_read? {s : Scene} {c : Caller} {ptr len : Int} {bytes : Bytes} :
    s.read c ptr len = .ok bytes ↔ c.exportsMemory = true ∧ 0 ≤ ptr ∧ 0 ≤ len ∧
      s.guest.memory.read? ptr.toNat len.toNat = some bytes := by
  constructor
  · intro hr
    refine ⟨?_, read_eq_ok hr⟩
    by_contra hn
    simp only [read, hn, if_false, reduceCtorEq] at hr
  · rintro ⟨hmemory, hptr, hlen, hr⟩
    have hfits : ptr.toNat + len.toNat ≤ s.guest.memory.size := by
      rw [Wasm.Memory.read?_eq] at hr
      split at hr
      · assumption
      · cases hr
    obtain ⟨stop, hrange⟩ : ∃ stop, range ptr len.toNat s.guest.memory.size = .ok stop :=
      range_eq_ok_iff.mpr ⟨hptr, hfits⟩
    rw [Int.toNat_of_nonneg hlen] at hrange
    simp only [read, hmemory, if_true, hrange, hr, Option.getD_some]

end Scene

namespace HostCall

variable (h : HostCall)

def served? : Option Call := h.scene.world.registry.get? h.caller.sandbox

def given? (i j : Nat) : Option Bytes :=
  if h.caller.exportsMemory then h.named (h.word i) (h.word j) else none

variable {h} {β : Type}

theorem served?_of_lookup {call : Call}
    (hl : Registry.lookup h.scene.world.registry h.caller.sandbox = .ok call) :
    h.served? = some call := by
  unfold Registry.lookup at hl
  split at hl
  next hcall =>
    cases hl
    exact hcall
  next => cases hl

theorem read_eq_ok_iff {i j : Nat} {bytes : Bytes} :
    h.scene.read h.caller (h.word i) (h.word j) = .ok bytes ↔ h.given? i j = some bytes := by
  rw [Scene.read_eq_ok_iff_read?, given?, named, Option.ite_none_right_eq_some,
    Option.ite_none_right_eq_some, and_assoc]

theorem read_bind {i j : Nat} {bytes : Bytes} (hg : h.given? i j = some bytes)
    (f : Bytes → HostM β) :
    (h.caller.read (h.word i) (h.word j) >>= f) h.scene = f bytes h.scene := by
  have hread : h.caller.read (h.word i) (h.word j) h.scene = (.ok bytes, h.scene) := by
    show HostM.ofExcept (h.scene.read h.caller (h.word i) (h.word j)) h.scene = _
    rw [read_eq_ok_iff.mpr hg]
    rfl
  rw [HostM.bind_apply, hread]

theorem read_bind_of_not_given {i j : Nat} (hg : h.given? i j = none) (f : Bytes → HostM β) :
    ∃ e, (h.caller.read (h.word i) (h.word j) >>= f) h.scene = (.error (.host e), h.scene) := by
  obtain ⟨e, hr⟩ : ∃ e, h.scene.read h.caller (h.word i) (h.word j) = .error e := by
    cases hr : h.scene.read h.caller (h.word i) (h.word j) with
    | error e => exact ⟨e, rfl⟩
    | ok bytes =>
      rw [read_eq_ok_iff, hg] at hr
      cases hr
  have hread : h.caller.read (h.word i) (h.word j) h.scene = (.error (.host e), h.scene) := by
    show HostM.ofExcept (h.scene.read h.caller (h.word i) (h.word j)) h.scene = _
    rw [hr]
    rfl
  exact ⟨e, by rw [HostM.bind_apply, hread]⟩

theorem call_bind {call : Call} (hs : h.served? = some call) (f : Call → HostM β) :
    (h.caller.call >>= f) h.scene = f call h.scene := by
  have hcall : h.caller.call h.scene = (.ok call, h.scene) := by
    show HostM.ofExcept (Registry.lookup h.scene.world.registry h.caller.sandbox) h.scene = _
    rw [Registry.lookup, show h.scene.world.registry.get? _ = _ from hs]
    rfl
  rw [HostM.bind_apply, hcall]

theorem call_bind_of_unserved (hs : h.served? = none) (f : Call → HostM β) :
    ∃ e, (h.caller.call >>= f) h.scene = (.error (.host e), h.scene) := by
  have hcall : h.caller.call h.scene =
      (.error (.host (.unknownCall h.caller.sandbox)), h.scene) := by
    show HostM.ofExcept (Registry.lookup h.scene.world.registry h.caller.sandbox) h.scene = _
    rw [Registry.lookup, show h.scene.world.registry.get? _ = _ from hs]
    rfl
  exact ⟨_, by rw [HostM.bind_apply, hcall]⟩

end HostCall

end MeteredContracts
