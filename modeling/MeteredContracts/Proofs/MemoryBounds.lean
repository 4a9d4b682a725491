import MeteredContracts.Proofs.Deployments
import MeteredContracts.Proofs.StoredValues

namespace MeteredContracts

open Wasm (Cell Memory)

namespace Scene

variable {s t : Scene} {c : Caller} {ptr len : Int} {bs : Bytes}

theorem range_accepts_iff {size : Nat} : (∃ stop, range ptr len size = .ok stop) ↔
    0 ≤ ptr ∧ 0 ≤ len ∧ ptr + len ≤ size := by
  by_cases hlen : 0 ≤ len
  · obtain ⟨n, rfl⟩ := Int.eq_ofNat_of_zero_le hlen
    rw [range_eq_ok_iff]
    omega
  · have hneg : len < 0 := Int.not_le.mp hlen
    by_cases hptr : ptr < 0
    · simp [range, hptr, hlen]
    · simp [range, hptr, hneg, hlen]

theorem read_eq_ok_iff : s.read c ptr len = .ok bs ↔
    c.exportsMemory = true ∧ 0 ≤ ptr ∧ 0 ≤ len ∧ ptr + len ≤ s.guest.memory.size ∧
      bs = (s.guest.memory.bytes.data.toList.drop ptr.toNat).take len.toNat := by
  rw [read_eq_ok_iff_read?, Memory.read?_eq, Option.ite_none_right_eq_some, Option.some.injEq]
  constructor
  · rintro ⟨hmemory, hptr, hlen, hfits, hbs⟩
    exact ⟨hmemory, hptr, hlen, by omega, hbs.symm⟩
  · rintro ⟨hmemory, hptr, hlen, hfits, hbs⟩
    exact ⟨hmemory, hptr, hlen, by omega, hbs.symm⟩

theorem write_eq_ok_iff : (∃ t, s.write c ptr bs = (.ok (), t)) ↔
    s.Fits c ptr bs.length ∧ bs.length ≤ Int32.maxValue.toInt := by
  constructor
  · rintro ⟨t, h⟩
    obtain ⟨hfits, hshort, -⟩ := write_eq_ok h
    exact ⟨hfits, hshort⟩
  · rintro ⟨hfits, hshort⟩
    exact ⟨_, write_of_fits hfits hshort⟩

theorem written_of_write (h : s.write c ptr bs = (.ok (), t)) :
    s.guest.memory.Written ptr.toNat bs t.guest.memory := by
  obtain ⟨hfits, -, rfl⟩ := write_eq_ok h
  exact hfits.written

end Scene

theorem Turn.deliver_memory (b : Box) (delegate : Option Delegate) (m : Wasm.Machine) (d : Delivery)
    (place : Int) (deliveries : List Delivery) (result : Option Bytes) (w : World) :
    let t := (deliver b delegate m d place deliveries result w).scene
    t.guest.memory = m.state.memory ∨
      0 ≤ place ∧ m.state.memory.Written place.toNat d.bytes t.guest.memory := by
  unfold deliver
  dsimp only
  split
  next e s hw =>
    rw [(Scene.write_eq_error hw).1]
    exact .inl rfl
  next s hw => exact .inr ⟨(Scene.write_eq_ok hw).1.2.1, Scene.written_of_write hw⟩

namespace HostCall

variable {h : HostCall}

theorem run_writeLog (hf : h.function = .writeLog) : h.run.1 = .ok (.values []) := by
  obtain ⟨function, c, args, s⟩ := h
  cases hf
  simp only [run, HostFunction.run, Caller.writeLog, HostM.bind_apply, HostM.get_apply]
  cases s.read c (args.getD 1 0).int32 (args.getD 2 0).int32 <;> rfl

theorem run_memory (hl : h.function ∈ HostFunction.standard) (hg : h.function ≠ .getState)
    (hd : h.function ≠ .deploy) : h.run.2.guest.memory = h.scene.guest.memory := by
  by_cases hc : h.function = .callContract
  · rw [h.run_callContract hc]
    cases h.commission with
    | error e => rfl
    | ok o =>
      dsimp only
      rw [o.carryOut_apply]
      split <;> rfl
  · exact HostFunction.keeps (f := fun s => s.guest.memory) hl hc h.caller (fun _ _ => rfl)
      (fun _ _ _ => rfl) (fun hw => absurd hw (not_or_intro hg hd)) (fun _ _ _ => rfl) h.args
      h.scene

variable (h) in
def found? : Option Bytes :=
  h.served?.bind fun call => (h.given? 0 1).bind (h.scene.world.stored call.contract)

def Puts (h : HostCall) (value : Bytes) : Prop :=
  ∃ bs, bs <+: value ∧ bs.length = min value.length (max (h.word 3) 0).toNat ∧ 0 ≤ h.word 2 ∧
    h.scene.guest.memory.Written (h.word 2).toNat bs h.run.2.guest.memory

theorem getState_memory (hf : h.function = .getState) :
    h.run.2.guest.memory = h.scene.guest.memory ∨
      ∃ value, h.found? = some value ∧ h.Puts value := by
  cases hs : h.served? with
  | none =>
    obtain ⟨e, he⟩ := run_storage_of_unserved (by simp [hf]) hs
    exact .inl (by rw [he])
  | some call =>
    cases hk : h.given? 0 1 with
    | none =>
      obtain ⟨e, he⟩ := run_getState_of_unread hf hs hk
      exact .inl (by rw [he])
    | some key =>
      have hreaches := h.scene.world.ask_reaches (.getState call.contract key)
      have hrun := run_getState hf hs hk
      rcases hask : h.scene.world.ask (.getState call.contract key) with ⟨e | _ | value, w⟩
      · rw [hask] at hrun
        exact .inl (by rw [hrun])
      · rw [hask] at hrun
        exact .inl (by rw [hrun])
      · rw [hask] at hrun hreaches
        obtain hserve | ⟨⟨e, he⟩, -⟩ := hreaches
        · have hfound : h.found? = some value := by
            simp only [found?, hs, hk, Option.bind_some]
            exact Except.ok.inj (congrArg Prod.fst hserve)
          dsimp only at hrun
          cases h.caller.writes (h.word 2) (value.take (h.word 3).toNat)
            { h.scene with world := w } with
          | done hfits _ hw =>
            rw [hw] at hrun
            have hwritten : h.scene.guest.memory.Written (h.word 2).toNat
                (value.take (h.word 3).toNat) h.run.2.guest.memory := by
              rw [hrun]
              exact hfits.written
            refine .inr ⟨value, hfound, value.take (h.word 3).toNat, List.take_prefix _ _, ?_,
              hfits.2.1, hwritten⟩
            rw [List.length_take]
            omega
          | refused e _ hw =>
            rw [hw] at hrun
            exact .inl (by rw [hrun])
        · cases he

theorem deploy_memory (hf : h.function = .deploy) :
    h.run.2.guest.memory = h.scene.guest.memory ∨
      ∃ a : Address, h.Returns (.ofInt32 0) ∧ 0 ≤ h.word 4 ∧
        h.scene.guest.memory.Written (h.word 4).toNat a.bytes h.run.2.guest.memory := by
  by_cases hd : ∃ id data, h.Deploys id data
  · obtain ⟨id, data, hd⟩ := hd
    by_cases ha : h.scene.world.service.Accepts ⟨id⟩
    · obtain ⟨-, ⟨hfits, hreturns, hwritten⟩ | ⟨-, -, hsame⟩⟩ := hd.of_accepts hf ha
      · exact .inr ⟨_, hreturns, hfits.2.1, hwritten⟩
      · exact .inl hsame
    · exact .inl (hd.of_not_accepts hf ha).2.2
  · obtain ⟨e, he⟩ := run_of_not_deploys hf fun id data h => hd ⟨id, data, h⟩
    exact .inl (by rw [he])

end HostCall

/-- The host takes a range that a guest names exactly if it lies in the guest's memory. Then it
reads what is there, or what it writes is there afterwards and all else as before; a range that is
refused leaves the memory as it is. Logging never fails. Looking up a value writes as much of it as
there is room for, and nothing if there is none; creating an account writes its address, and only if
it reports success; a delivery writes what is delivered. Other host functions do not touch the
memory. -/
theorem HostCall.memory_bounds_respected :
    (∀ (ptr len : Int) (size : Nat), (∃ stop, Scene.range ptr len size = .ok stop) ↔
      0 ≤ ptr ∧ 0 ≤ len ∧ ptr + len ≤ size) ∧
    (∀ (s : Scene) c ptr len bytes, s.read c ptr len = .ok bytes ↔
      c.exportsMemory = true ∧ 0 ≤ ptr ∧ 0 ≤ len ∧ ptr + len ≤ s.guest.memory.size ∧
        bytes = (s.guest.memory.bytes.data.toList.drop ptr.toNat).take len.toNat) ∧
    (∀ (s : Scene) c ptr bytes,
      ((∃ t, s.write c ptr bytes = (.ok (), t)) ↔
        s.Fits c ptr bytes.length ∧ bytes.length ≤ Int32.maxValue.toInt) ∧
      (∀ t, s.write c ptr bytes = (.ok (), t) →
        s.guest.memory.Written ptr.toNat bytes t.guest.memory) ∧
      ∀ e t, s.write c ptr bytes = (.error e, t) → t = s) ∧
    (∀ b delegate m d place deliveries result w,
      let t := (Turn.deliver b delegate m d place deliveries result w).scene
      t.guest.memory = m.state.memory ∨
        0 ≤ place ∧ m.state.memory.Written place.toNat d.bytes t.guest.memory) ∧
    ∀ h : HostCall,
      (h.function = .writeLog → h.run.1 = .ok (.values [])) ∧
      (h.function = .getState → h.run.2.guest.memory = h.scene.guest.memory ∨
        ∃ value, h.found? = some value ∧ h.Puts value) ∧
      (h.function = .deploy → h.run.2.guest.memory = h.scene.guest.memory ∨
        ∃ a : Address, h.Returns (.ofInt32 0) ∧ 0 ≤ h.word 4 ∧
          h.scene.guest.memory.Written (h.word 4).toNat a.bytes h.run.2.guest.memory) ∧
      (h.function ∈ HostFunction.standard → h.function ≠ .getState → h.function ≠ .deploy →
        h.run.2.guest.memory = h.scene.guest.memory) :=
  ⟨fun _ _ _ => Scene.range_accepts_iff, fun _ _ _ _ _ => Scene.read_eq_ok_iff,
    fun _ _ _ _ => ⟨Scene.write_eq_ok_iff, fun _ => Scene.written_of_write,
      fun _ _ h => (Scene.write_eq_error h).1⟩,
    Turn.deliver_memory,
    fun _ => ⟨run_writeLog, getState_memory, deploy_memory, run_memory⟩⟩

example : Scene.range 64 0 64 = .ok 64 ∧ (Scene.range 65 0 64).toOption = none := by decide

end MeteredContracts
