import MeteredContracts.Proofs.Turns
import MeteredContracts.Sandbox.Invocation

namespace MeteredContracts

open Wasm (Cell)

namespace Sandbox

variable (s : Sandbox) (function : String) (payload : Bytes) (w : World)

def allocator? : Option Nat :=
  if s.box.module.exportsMemory then
    match s.box.module.exportedFunction? "alloc" with
    | none => none
    | some index =>
      if s.box.program.type? index = some ⟨[.i32], [.i32]⟩ ∧
          payload.length ≤ Int32.maxValue.toInt then some index
      else none
  else none

def entry? : Option Nat :=
  match s.box.module.exportedFunction? function with
  | none => none
  | some index =>
    if (s.box.program.type? index).map (·.params) = some [.i32] then some index else none

inductive CallsInvoked (h : HostCall) : Prop
  | placing {index : Nat} : s.allocator? payload = some index →
      s.Calls index [.ofNat payload.length] w h → CallsInvoked h
  | serving {place index : Nat} {s' : Sandbox} {w' : World} :
      s.placePayload payload w = (.ok place, s', w') → s'.entry? function = some index →
      s'.Calls index [.ofNat place] w' h → CallsInvoked h

def placingCalls : List HostCall :=
  match s.allocator? payload with
  | none => []
  | some index => s.hostCalls index [.ofNat payload.length] w

def servingCalls : List HostCall :=
  match s.placePayload payload w with
  | (.error _, _, _) => []
  | (.ok place, s, w) =>
    match s.entry? function with
    | none => []
    | some index => s.hostCalls index [.ofNat place] w

theorem mem_callsInvoked {h : HostCall} :
    h ∈ s.placingCalls payload w ++ s.servingCalls function payload w ↔
      s.CallsInvoked function payload w h := by
  rw [List.mem_append]
  constructor
  · rintro (hh | hh)
    · unfold placingCalls at hh
      split at hh
      · cases hh
      next ha => exact .placing ha (mem_hostCalls.mp hh)
    · unfold servingCalls at hh
      split at hh
      · cases hh
      next hp =>
        split at hh
        · cases hh
        next he => exact .serving hp he (mem_hostCalls.mp hh)
  · intro hh
    cases hh with
    | placing ha hh =>
      left
      simp only [placingCalls, ha]
      exact mem_hostCalls.mpr hh
    | serving hp he hh =>
      right
      simp only [servingCalls, hp, he]
      exact mem_hostCalls.mpr hh

def placingError (f : Failure) : CallError :=
  match s.classify f with
  | .fuelExhausted => .fuelExhausted
  | .timeout ms => .timeout ms
  | e => .memoryWrite s!"`alloc` failed: {e.message}"

theorem placePayload_of_none (h : s.allocator? payload = none) :
    ∃ reason, s.placePayload payload w = (.error (.memoryWrite reason), s, w) := by
  unfold allocator? at h
  unfold placePayload
  dsimp only
  split
  · exact ⟨_, rfl⟩
  next hm =>
    rw [if_pos (by simpa using hm)] at h
    cases ha : s.box.module.exportedFunction? "alloc" with
    | none => exact ⟨_, rfl⟩
    | some index =>
      rw [ha] at h
      dsimp only at h ⊢
      split
      · exact ⟨_, rfl⟩
      · split
        · exact ⟨_, rfl⟩
        · next ht hl =>
          rw [if_pos ⟨not_not.mp ht, Int.not_lt.mp hl⟩] at h
          cases h

theorem placePayload_of_some {index : Nat} (h : s.allocator? payload = some index) :
    let r := s.run index [.ofNat payload.length] w
    (∃ f, r.1 = .error f ∧ s.placePayload payload w = (.error (s.placingError f), r.2)) ∨
      (∃ results, r.1 = .ok results ∧
        ∃ reason, s.placePayload payload w = (.error (.memoryWrite reason), r.2)) ∨
      ∃ results, r.1 = .ok results ∧ ∃ place bytes, s.placePayload payload w =
        (.ok place, { r.2.1 with guest.memory.bytes := bytes }, r.2.2) := by
  have hbox := (s.run_box index [.ofNat payload.length] w).1
  unfold allocator? at h
  unfold placePayload
  cases hm : s.box.module.exportsMemory with
  | false => simp only [hm, Bool.false_eq_true, if_false, reduceCtorEq] at h
  | true =>
    cases ha : s.box.module.exportedFunction? "alloc" with
    | none => simp only [hm, ha, if_true, reduceCtorEq] at h
    | some i =>
      simp only [hm, ha, if_true, Option.ite_none_right_eq_some] at h
      obtain ⟨⟨ht, hl⟩, hi⟩ := h
      cases hi
      simp only [Bool.not_true, Bool.false_eq_true, if_false, ht, ne_eq, not_true_eq_false,
        Int.not_lt.mpr hl]
      rcases hr : s.run index [.ofNat payload.length] w with
        ⟨f | results, ⟨box, guest, result, delegate⟩, w'⟩
      · rw [hr] at hbox
        have hclassify : classify ⟨box, guest, result, delegate⟩ f = s.classify f := by
          unfold classify
          rw [show box = s.box from hbox]
        refine .inl ⟨f, rfl, ?_⟩
        dsimp only
        rw [hclassify]
        unfold placingError
        cases s.classify f <;> rfl
      · right
        dsimp only
        split
        · exact .inl ⟨results, rfl, _, rfl⟩
        · split
          · exact .inl ⟨results, rfl, _, rfl⟩
          · exact .inr ⟨results, rfl, _, _, rfl⟩

theorem invoke_eq : s.invoke function payload w =
    match s.placePayload payload w with
    | (.error e, s, w) => (.error e, s, w)
    | (.ok place, s, w) =>
      match s.entry? function with
      | none => (.error (if (s.box.module.exportedFunction? function).isNone
          then .exportMissing function else .trap "wrong arguments" none), s, w)
      | some index =>
        match s.run index [.ofNat place] w with
        | (.ok _, s, w) => (.ok (s.result.getD []), { s with result := none }, w)
        | (.error f, s, w) => (.error (s.classify f), s, w) := by
  unfold invoke
  rcases s.placePayload payload w with ⟨_ | place, s', w'⟩
  · rfl
  · dsimp only
    unfold entry?
    cases s'.box.module.exportedFunction? function with
    | none => rfl
    | some index =>
      dsimp only
      by_cases hp : (s'.box.program.type? index).map (·.params) = some [.i32]
      · rcases hr : s'.run index [.ofNat place] w' with ⟨_ | _, _, _⟩ <;>
          simp only [hp, hr, ne_eq, not_true_eq_false, if_false, if_true]
      · simp only [hp, ne_eq, not_false_eq_true, if_false, if_true, Option.isNone_some,
          Bool.false_eq_true]

variable {s function payload w}

section Accumulates

variable {α : Type} {R : List α → Scene → Scene → Prop} (hR : Turn.Accumulates R)
  (record : HostCall → List α)
  (host : ∀ h, s.CallsInvoked function payload w h → R (record h) h.scene h.run.2)

include hR host

theorem placePayload_accumulates :
    R ((s.placingCalls payload w).flatMap record) (s.scene w)
      ((s.placePayload payload w).2.1.scene (s.placePayload payload w).2.2) := by
  unfold placingCalls
  cases ha : s.allocator? payload with
  | none =>
    obtain ⟨e, he⟩ := s.placePayload_of_none payload w ha
    rw [he]
    exact hR.guest (.refl _)
  | some index =>
    have hrun := run_accumulates hR record fun h hh => host h (.placing ha hh)
    obtain ⟨f, -, he⟩ | ⟨results, -, reason, he⟩ | ⟨results, -, place, bytes, he⟩ :=
      s.placePayload_of_some payload w ha
    · rw [he]
      exact hrun
    · rw [he]
      exact hrun
    · rw [he]
      exact hR.quiet hrun (hR.guest (.of_state (.refl _)))

theorem invoke_accumulates (taken : ∀ t : Scene, R [] t { t with result := none }) :
    R ((s.placingCalls payload w ++ s.servingCalls function payload w).flatMap record) (s.scene w)
      ((s.invoke function payload w).2.1.scene (s.invoke function payload w).2.2) := by
  have hplace := placePayload_accumulates hR record host
  rw [List.flatMap_append, invoke_eq]
  unfold servingCalls
  rcases hp : s.placePayload payload w with ⟨_ | place, s', w'⟩
  · rw [hp] at hplace
    exact hR.trans hplace (hR.guest (.refl _))
  · rw [hp] at hplace
    dsimp only
    cases he : s'.entry? function with
    | none => exact hR.trans hplace (hR.guest (.refl _))
    | some index =>
      have hrun := hR.trans hplace
        (run_accumulates hR record fun h hh => host h (.serving hp he hh))
      dsimp only
      rcases hr : s'.run index [.ofNat place] w' with ⟨_ | _, s'', w''⟩
      · rwa [hr] at hrun
      · rw [hr] at hrun
        exact hR.quiet hrun (taken _)

end Accumulates

variable {R : Scene → Scene → Prop} (hR : Turn.Follows R)

include hR

theorem placePayload_keeps
    (host : ∀ h, s.CallsInvoked function payload w h → R h.scene h.run.2) :
    R (s.scene w) ((s.placePayload payload w).2.1.scene (s.placePayload payload w).2.2) :=
  placePayload_accumulates hR.accumulates (fun _ => []) host

theorem invoke_keeps (host : ∀ h, s.CallsInvoked function payload w h → R h.scene h.run.2)
    (taken : ∀ t : Scene, R t { t with result := none }) :
    R (s.scene w) ((s.invoke function payload w).2.1.scene (s.invoke function payload w).2.2) :=
  invoke_accumulates hR.accumulates (fun _ => []) host taken

theorem CallsInvoked.keeps {h : HostCall} (hh : s.CallsInvoked function payload w h)
    (host : ∀ h, s.CallsInvoked function payload w h → R h.scene h.run.2) :
    R (s.scene w) h.scene := by
  cases hh with
  | placing ha hh => exact hh.keeps hR fun h hh => host h (.placing ha hh)
  | serving hp he hh =>
    have hplace := placePayload_keeps hR host
    rw [hp] at hplace
    exact hR.trans hplace (hh.keeps hR fun h hh => host h (.serving hp he hh))

end Sandbox

end MeteredContracts
