import MeteredContracts.Proofs.FrameRules

namespace MeteredContracts

open Wasm (Cell Machine Memory Step)

namespace Wasm

namespace Memory

theorem size_overwrite (b : ByteArray) (start : Nat) (bs : Bytes) :
    (overwrite b start bs).size = b.size := by
  induction bs generalizing b start with
  | nil => rfl
  | cons x xs ih => exact (ih _ _).trans Array.size_setIfInBounds

theorem toList_overwrite (b : ByteArray) (start : Nat) (bs : Bytes)
    (h : start + bs.length ≤ b.size) : (overwrite b start bs).data.toList =
      b.data.toList.take start ++ (bs ++ b.data.toList.drop (start + bs.length)) := by
  -- bytes are written one by one, so the rest of them starts one place further on
  induction bs generalizing b start with
  | nil => exact (List.take_append_drop start b.data.toList).symm
  | cons x xs ih =>
    rw [List.length_cons] at h
    have hlength : b.data.toList.length = b.size := Array.length_toList
    have hsize : (b.set! start x).size = b.size := Array.size_setIfInBounds
    have hset : (b.set! start x).data.toList = b.data.toList.set start x :=
      Array.toList_setIfInBounds
    have hlt : start < b.data.toList.length := by omega
    obtain ⟨before, after, hb, rfl, hx⟩ : ∃ before after,
        b.data.toList = before ++ b.data.toList[start] :: after ∧ before.length = start ∧
          b.data.toList.set start x = before ++ x :: after := List.exists_of_set hlt
    rw [overwrite, ih _ _ (by omega), hset, hx, hb]
    have hdrop : before.length + 1 + xs.length = before.length + (xs.length + 1) := by omega
    rw [hdrop, List.take_length_add_append, List.length_cons, List.drop_length_add_append,
      List.drop_length_add_append, List.take_left]
    simp

theorem read?_overwrite (m : Memory) (start : Nat) (bs : Bytes)
    (h : start + bs.length ≤ m.size) :
    ({ m with bytes := overwrite m.bytes start bs } : Memory).read? start bs.length = some bs := by
  have hlength : (m.bytes.data.toList.take start).length = start := by
    rw [List.length_take]
    exact Nat.min_eq_left (Nat.le_trans (Nat.le_add_right _ _) h)
  have hsize : start + bs.length ≤ (overwrite m.bytes start bs).size :=
    Nat.le_trans h (Nat.le_of_eq (size_overwrite m.bytes start bs).symm)
  refine (if_pos hsize).trans (congrArg some ?_)
  rw [ByteArray.data_extract, Array.toList_extract, toList_overwrite _ _ _ h,
    List.extract_eq_take_drop, Nat.add_sub_cancel_left, List.drop_left' hlength, List.take_left]

end Memory

namespace Machine

variable (p : Program) (m : Machine)

theorem trap_memory (t : Trap) : (trap m t).machine.state.memory = m.state.memory := rfl

theorem safePoint_memory : (safePoint m).machine.state.memory = m.state.memory := by
  unfold safePoint
  split
  · exact trap_memory m.settle _
  · split
    · rfl
    · exact trap_memory m _
    · rfl

theorem call_memory (index : Nat) : (call p m index).machine.state.memory = m.state.memory := by
  unfold call
  dsimp only
  split
  · exact trap_memory m.settle _
  · split
    · rfl
    · split
      · exact trap_memory m.settle _
      · unfold enter
        split
        · exact trap_memory m.settle _
        · exact safePoint_memory { m.settle.pay with active := _, callers := _, depth := _ }

end Machine

end Wasm

namespace Sandbox

variable (s : Sandbox) (function : String) (payload : Bytes) (w : World)

def entered? : Option (Cell × Memory) :=
  match s.placePayload payload w with
  | (.error _, _, _) => none
  | (.ok place, s, w) => (s.entry? function).map fun index =>
    (.ofNat place, (s.firstTurn index [.ofNat place] w).scene.guest.memory)

theorem firstTurn_memory (index : Nat) (args : List Cell) :
    (s.firstTurn index args w).scene.guest.memory = s.guest.memory :=
  Machine.call_memory s.box.program
    ⟨s.guest, ⟨_, #[], args.reverse, [], []⟩, [], 0, s.box.patience w⟩ index

variable {s payload w}

theorem placePayload_memory {place : Nat} {s' : Sandbox} {w' : World}
    (h : s.placePayload payload w = (.ok place, s', w')) :
    place ≤ Int32.maxValue.toInt ∧ s'.guest.memory.read? place payload.length = some payload := by
  -- all but the last of the branches report an error
  unfold placePayload at h
  dsimp only at h
  split at h
  · cases h
  split at h
  · cases h
  split at h
  · cases h
  split at h
  · cases h
  split at h
  · split at h <;> cases h
  next results box bytes limit globals meter result delegate w _ =>
    split at h
    · cases h
    next hsign =>
      split at h
      · cases h
      next hfits =>
        cases h
        have hle := (results.headD 0).toUInt32.toInt32.toInt_le
        refine ⟨?_, Memory.read?_overwrite ⟨bytes, limit⟩ _ _ (Nat.not_lt.mp hfits)⟩
        rw [Int.toNat_of_nonneg (Int.not_lt.mp hsign)]
        exact hle

theorem entered?_memory {ptr : Cell} {memory : Memory}
    (h : s.entered? function payload w = some (ptr, memory)) :
    memory.read? ptr.toNat payload.length = some payload := by
  unfold entered? at h
  split at h
  · cases h
  next place s' w' hplace =>
    obtain ⟨index, -, he⟩ := Option.map_eq_some_iff.mp h
    cases he
    obtain ⟨hle, hmemory⟩ := placePayload_memory hplace
    have hmax : Int32.maxValue.toInt = 2147483647 := by decide
    have hptr : (UInt64.ofNat place).toNat = place :=
      UInt64.toNat_ofNat_of_lt' (by rw [UInt64.size]; omega)
    rw [firstTurn_memory, hptr]
    exact hmemory

theorem entered?_of_invoke_eq_ok {bytes : Bytes} (h : (s.invoke function payload w).1 = .ok bytes) :
    ∃ ptr memory, s.entered? function payload w = some (ptr, memory) := by
  rw [invoke_eq] at h
  unfold entered?
  rcases hplace : s.placePayload payload w with ⟨_ | place, s', w'⟩
  · rw [hplace] at h
    cases h
  · rw [hplace] at h
    dsimp only at h ⊢
    cases hentry : s'.entry? function with
    | none =>
      rw [hentry] at h
      cases h
    | some index => exact ⟨_, _, rfl⟩

end Sandbox

end MeteredContracts
