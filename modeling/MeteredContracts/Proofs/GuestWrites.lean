import MeteredContracts.Proofs.GuestMemory

namespace MeteredContracts

namespace Wasm.Memory

theorem getElem?_overwrite (b : ByteArray) (start : Nat) (bs : Bytes) {i : Nat}
    (h : i < start ∨ start + bs.length ≤ i) :
    (overwrite b start bs).data.toList[i]? = b.data.toList[i]? := by
  induction bs generalizing b start with
  | nil => rfl
  | cons x xs ih =>
    rw [List.length_cons] at h
    have hset : (b.set! start x).data.toList = b.data.toList.set start x :=
      Array.toList_setIfInBounds
    rw [overwrite, ih _ _ (by omega), hset, List.getElem?_set_ne (by omega)]

theorem read?_eq (m : Memory) (start len : Nat) : m.read? start len =
    if start + len ≤ m.size then some ((m.bytes.data.toList.drop start).take len) else none := by
  unfold read?
  rw [ByteArray.data_extract, Array.toList_extract, List.extract_eq_take_drop,
    Nat.add_sub_cancel_left]

structure Written (m : Memory) (start : Nat) (bs : Bytes) (m' : Memory) : Prop where
  fits : start + bs.length ≤ m.size
  size : m'.size = m.size
  limit : m'.limit = m.limit
  inside : m'.read? start bs.length = some bs
  outside : ∀ i n, i + n ≤ start ∨ start + bs.length ≤ i → m'.read? i n = m.read? i n

theorem written_overwrite (m : Memory) {start : Nat} {bs : Bytes}
    (h : start + bs.length ≤ m.size) :
    m.Written start bs { m with bytes := overwrite m.bytes start bs } where
  fits := h
  size := size_overwrite m.bytes start bs
  limit := rfl
  inside := read?_overwrite m start bs h
  outside i n hi := by
    have hsize : Memory.size { m with bytes := overwrite m.bytes start bs } = m.size :=
      size_overwrite m.bytes start bs
    rw [read?_eq, read?_eq, hsize]
    split
    · refine congrArg some (List.ext_getElem? fun j => ?_)
      rw [List.getElem?_take, List.getElem?_take, List.getElem?_drop, List.getElem?_drop]
      split
      · exact getElem?_overwrite m.bytes start bs (by omega)
      · rfl
    · rfl

end Wasm.Memory

namespace Scene

variable {s s' : Scene} {c : Caller} {ptr : Int} {bs : Bytes}

def Fits (s : Scene) (c : Caller) (ptr : Int) (len : Nat) : Prop :=
  c.exportsMemory = true ∧ 0 ≤ ptr ∧ ptr.toNat + len ≤ s.guest.memory.size

theorem range_eq_ok_iff {ptr : Int} {len size : Nat} :
    (∃ stop, range ptr len size = .ok stop) ↔ 0 ≤ ptr ∧ ptr.toNat + len ≤ size := by
  unfold range
  by_cases hptr : ptr < 0
  · simp only [hptr, if_true, reduceCtorEq, exists_false, false_iff]
    omega
  · have hlen : ¬(len : Int) < 0 := by omega
    simp only [hptr, if_false, hlen, Int.toNat_natCast]
    by_cases hfits : size < ptr.toNat + len
    · simp only [hfits, if_true, reduceCtorEq, exists_false, false_iff]
      omega
    · simp only [hfits, if_false, Except.ok.injEq, exists_eq', true_iff]
      omega

theorem write_of_fits (h : s.Fits c ptr bs.length) (hl : bs.length ≤ Int32.maxValue.toInt) :
    s.write c ptr bs = (.ok (), s.overwrite ptr.toNat bs) := by
  obtain ⟨stop, hr⟩ := range_eq_ok_iff.mpr h.2
  simp only [write, h.1, if_true, Int.not_lt.mpr hl, if_false, hr]

theorem write_of_not_fits (h : ¬s.Fits c ptr bs.length) :
    ∃ e, s.write c ptr bs = (.error e, s) := by
  unfold write
  split
  next hm =>
    split
    · exact ⟨_, rfl⟩
    · split
      next e _ => exact ⟨e, rfl⟩
      next stop hr => exact absurd ⟨hm, range_eq_ok_iff.mp ⟨stop, hr⟩⟩ h
  · exact ⟨_, rfl⟩

theorem write_eq_ok (h : s.write c ptr bs = (.ok (), s')) :
    s.Fits c ptr bs.length ∧ bs.length ≤ Int32.maxValue.toInt ∧
      s' = s.overwrite ptr.toNat bs := by
  by_cases hf : s.Fits c ptr bs.length
  · by_cases hl : bs.length ≤ Int32.maxValue.toInt
    · rw [write_of_fits hf hl] at h
      cases h
      exact ⟨hf, hl, rfl⟩
    · simp only [write, hf.1, if_true, Int.not_le.mp hl, Prod.mk.injEq, reduceCtorEq,
        false_and] at h
  · obtain ⟨e, he⟩ := write_of_not_fits hf
    rw [he] at h
    cases h

theorem range_eq_error {ptr len : Int} {size : Nat} {e : HostError}
    (h : range ptr len size = .error e) : ∃ reason, e = .memoryAccess reason := by
  unfold range at h
  split at h
  · cases h
    exact ⟨_, rfl⟩
  · split at h
    · cases h
      exact ⟨_, rfl⟩
    · dsimp only at h
      split at h
      · cases h
        exact ⟨_, rfl⟩
      · cases h

theorem write_eq_error {e : HostError} (h : s.write c ptr bs = (.error e, s')) :
    s' = s ∧ (e = .missingExport "memory" ∨ ∃ reason, e = .memoryAccess reason) := by
  unfold write at h
  split at h
  · split at h
    · cases h
      exact ⟨rfl, .inr ⟨_, rfl⟩⟩
    · split at h
      next hr =>
        cases h
        exact ⟨rfl, .inr (range_eq_error hr)⟩
      · cases h
  · cases h
    exact ⟨rfl, .inl rfl⟩

theorem Fits.written (h : s.Fits c ptr bs.length) :
    s.guest.memory.Written ptr.toNat bs (s.overwrite ptr.toNat bs).guest.memory :=
  Wasm.Memory.written_overwrite s.guest.memory h.2.2

end Scene

inductive Caller.Writes (c : Caller) (ptr : Int) (bs : Bytes) (s : Scene) : Prop
  | done (fits : s.Fits c ptr bs.length) (short : bs.length ≤ Int32.maxValue.toInt)
      (h : c.write ptr bs s = (.ok (), s.overwrite ptr.toNat bs))
  | refused (e : HostError)
      (unfit : s.Fits c ptr bs.length → Int32.maxValue.toInt < bs.length)
      (h : c.write ptr bs s = (.error (.host e), s))

theorem Caller.writes (c : Caller) (ptr : Int) (bs : Bytes) (s : Scene) : c.Writes ptr bs s := by
  by_cases hf : s.Fits c ptr bs.length
  · by_cases hl : bs.length ≤ Int32.maxValue.toInt
    · refine .done hf hl ?_
      simp only [Caller.write, Scene.write_of_fits hf hl]
    · refine .refused (.memoryAccess "write too large") (fun _ => Int.not_le.mp hl) ?_
      simp only [Caller.write, Scene.write, hf.1, if_true, Int.not_le.mp hl]
  · obtain ⟨e, he⟩ := Scene.write_of_not_fits hf
    refine .refused e (fun h => absurd h hf) ?_
    simp only [Caller.write, he]

end MeteredContracts
