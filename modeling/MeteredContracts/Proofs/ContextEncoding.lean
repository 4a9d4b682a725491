import Mathlib.Algebra.Group.Nat.Defs
import Mathlib.Logic.Function.Basic
import MeteredContracts.Call.Context

namespace MeteredContracts

namespace Bytes

theorem toNatLE_ofNatLE (width n : Nat) : toNatLE (ofNatLE width n) = n % 256 ^ width := by
  induction width generalizing n with
  | zero => simp only [ofNatLE, toNatLE, Nat.pow_zero, Nat.mod_one]
  | succ width ih =>
    have hlow : (UInt8.ofNat (n % 256)).toNat = n % 256 := by
      rw [UInt8.toNat_ofNat']
      omega
    rw [ofNatLE, toNatLE, ih, hlow, Nat.pow_succ', Nat.mod_mul]

theorem toNatLE_lt (bs : Bytes) : toNatLE bs < 256 ^ bs.length := by
  have hcanonical := congrArg toNatLE (ofNatLE_toNatLE bs)
  rw [toNatLE_ofNatLE] at hcanonical
  rw [← hcanonical]
  exact Nat.mod_lt _ (Nat.pow_pos (by decide))

theorem getElem?_ofNatLE {width i : Nat} (n : Nat) (hi : i < width) :
    (ofNatLE width n)[i]? = some (UInt8.ofNat (n / 256 ^ i % 256)) := by
  induction width generalizing n i with
  | zero => cases hi
  | succ width ih =>
    cases i with
    | zero => simp only [ofNatLE, List.getElem?_cons_zero, Nat.pow_zero, Nat.div_one]
    | succ i =>
      rw [ofNatLE, List.getElem?_cons_succ, ih _ (Nat.lt_of_succ_lt_succ hi), Nat.pow_succ',
        Nat.div_div_eq_div_mul]

end Bytes

namespace Context

structure LaidOut (c : Context) (bs : Bytes) : Prop where
  contract : bs.take 33 = c.contract.bytes
  actor : (bs.drop 33).take 33 = c.actor.bytes
  height : (bs.drop 66).take 8 = Bytes.ofNatLE 8 c.height.toNat
  timestamp : (bs.drop 74).take 8 = Bytes.ofNatLE 8 c.timestamp.toNat
  action : (bs.drop 82).take 32 = c.action.bytes

theorem laidOut_payload (c : Context) (params : Bytes) : c.LaidOut (c.payload params) := by
  have hcontract := c.contract.length_eq
  have hactor := c.actor.length_eq
  have haction := c.action.length_eq
  have hwidth := Bytes.length_ofNatLE 8
  -- one field after another is taken off the front
  have h33 : (c.payload params).drop 33 = c.actor.bytes ++ (Bytes.ofNatLE 8 c.height.toNat ++
      (Bytes.ofNatLE 8 c.timestamp.toNat ++ (c.action.bytes ++ params))) := by
    simp only [payload, encode, List.append_assoc, List.drop_left' hcontract]
  have h66 : (c.payload params).drop 66 = Bytes.ofNatLE 8 c.height.toNat ++
      (Bytes.ofNatLE 8 c.timestamp.toNat ++ (c.action.bytes ++ params)) := by
    rw [← List.drop_drop (i := 33) (j := 33), h33, List.drop_left' hactor]
  have h74 : (c.payload params).drop 74 =
      Bytes.ofNatLE 8 c.timestamp.toNat ++ (c.action.bytes ++ params) := by
    rw [← List.drop_drop (i := 8) (j := 66), h66, List.drop_left' (hwidth _)]
  have h82 : (c.payload params).drop 82 = c.action.bytes ++ params := by
    rw [← List.drop_drop (i := 8) (j := 74), h74, List.drop_left' (hwidth _)]
  refine ⟨?_, ?_, ?_, ?_, ?_⟩
  · simp only [payload, encode, List.append_assoc, List.take_left' hcontract]
  · rw [h33, List.take_left' hactor]
  · rw [h66, List.take_left' (hwidth _)]
  · rw [h74, List.take_left' (hwidth _)]
  · rw [h82, List.take_left' haction]

theorem LaidOut.encode_eq {c : Context} {bs : Bytes} (h : c.LaidOut bs) :
    c.encode = bs.take size := by
  have hsplit : bs.take (33 + (33 + (8 + (8 + 32)))) = bs.take 33 ++ ((bs.drop 33).take 33 ++
      ((bs.drop 66).take 8 ++ ((bs.drop 74).take 8 ++ (bs.drop 82).take 32))) := by
    rw [List.take_add, List.take_add, List.take_add, List.take_add, List.drop_drop, List.drop_drop,
      List.drop_drop]
  rw [encode, ← h.contract, ← h.actor, ← h.height, ← h.timestamp, ← h.action]
  exact hsplit.symm

theorem LaidOut.integers {c : Context} {bs : Bytes} (h : c.LaidOut bs) {i : Nat} (hi : i < 8) :
    bs[66 + i]? = some (.ofNat (c.height.toNat / 256 ^ i % 256)) ∧
      bs[74 + i]? = some (.ofNat (c.timestamp.toNat / 256 ^ i % 256)) := by
  have hbyte (start n : Nat) (hn : (bs.drop start).take 8 = Bytes.ofNatLE 8 n) :
      bs[start + i]? = some (.ofNat (n / 256 ^ i % 256)) := by
    rw [← Bytes.getElem?_ofNatLE n hi, ← hn, List.getElem?_take_of_lt hi, List.getElem?_drop]
  exact ⟨hbyte 66 _ h.height, hbyte 74 _ h.timestamp⟩

theorem exists_laidOut {bs : Bytes} (h : size ≤ bs.length) : ∃ c : Context, c.LaidOut bs := by
  have hfield (start width : Nat) (hw : start + width ≤ size) :
      ((bs.drop start).take width).length = width := by
    rw [List.length_take, List.length_drop]
    omega
  have hinteger (bs : Bytes) (hb : bs.length = 8) :
      bs = Bytes.ofNatLE 8 (UInt64.ofNat (Bytes.toNatLE bs)).toNat := by
    have hlt := Bytes.toNatLE_lt bs
    rw [hb] at hlt
    rw [UInt64.toNat_ofNat_of_lt' hlt]
    exact (hb ▸ bs.ofNatLE_toNatLE).symm
  exact ⟨⟨⟨_, hfield 0 33 (by decide)⟩, ⟨_, hfield 33 33 (by decide)⟩, _, _,
    ⟨_, hfield 82 32 (by decide)⟩⟩, rfl, rfl,
    hinteger _ (hfield 66 8 (by decide)), hinteger _ (hfield 74 8 (by decide)), rfl⟩

theorem decode_of_laidOut {c : Context} {bs : Bytes} (h : c.LaidOut bs) : decode bs = some c := by
  have hinteger (n : UInt64) : UInt64.ofNat (Bytes.toNatLE (Bytes.ofNatLE 8 n.toNat)) = n := by
    have hlt : n.toNat < 256 ^ 8 := n.toNat_lt
    rw [Bytes.toNatLE_ofNatLE, Nat.mod_eq_of_lt hlt, UInt64.ofNat_toNat]
  have haddress (a : Address) : Address.ofBytes? a.bytes = some a := dif_pos a.length_eq
  have haction : ActionId.ofBytes? c.action.bytes = some c.action := dif_pos c.action.length_eq
  simp only [decode, h.contract, h.actor, h.height, h.timestamp, h.action, haddress, haction,
    hinteger, Option.bind_eq_bind, Option.bind_some]

theorem decode_eq_none_iff {bs : Bytes} : decode bs = none ↔ bs.length < size := by
  constructor
  · intro hnone
    by_contra hle
    obtain ⟨c, hc⟩ := exists_laidOut (Nat.not_lt.mp hle)
    rw [decode_of_laidOut hc] at hnone
    cases hnone
  · intro hlt
    have haction : ((bs.drop 82).take 32).length ≠ 32 := by
      unfold size at hlt
      rw [List.length_take, List.length_drop]
      omega
    simp only [decode, ActionId.ofBytes?, dif_neg haction, Option.bind_eq_bind, Option.bind_none,
      Option.bind_fun_none]

theorem decode_eq_some_iff {bs : Bytes} {c : Context} : decode bs = some c ↔ c.LaidOut bs := by
  refine ⟨fun h => ?_, decode_of_laidOut⟩
  have hle : size ≤ bs.length := by
    by_contra hlt
    rw [decode_eq_none_iff.mpr (Nat.not_le.mp hlt)] at h
    cases h
  obtain ⟨c', hc'⟩ := exists_laidOut hle
  rw [decode_of_laidOut hc'] at h
  cases h
  exact hc'

/-- A context is written in 114 bytes, with each field in its place, and read back whatever stands
behind them. Every string that is long enough is read as a context, and its first 114 bytes are what
that context is written as; so contexts and strings of 114 bytes correspond one to one. -/
theorem encoding_bijective :
    (∀ (c : Context) (params : Bytes), c.payload params = c.encode ++ params ∧
      c.encode.length = 114 ∧ c.LaidOut (c.payload params) ∧
      (∀ i < 8, (c.payload params)[66 + i]? = some (.ofNat (c.height.toNat / 256 ^ i % 256)) ∧
        (c.payload params)[74 + i]? = some (.ofNat (c.timestamp.toNat / 256 ^ i % 256))) ∧
      decode (c.payload params) = some c) ∧
    (∀ bs : Bytes, (decode bs = none ↔ bs.length < 114) ∧
      ∀ c, decode bs = some c → c.encode = bs.take 114) ∧
    Function.Bijective fun c : Context =>
      (⟨c.encode, c.length_encode⟩ : { bs : Bytes // bs.length = 114 }) := by
  refine ⟨fun c params => ?_, fun bs => ?_, ?_, ?_⟩
  · have hlaid := c.laidOut_payload params
    exact ⟨rfl, c.length_encode, hlaid, fun i hi => hlaid.integers hi, decode_of_laidOut hlaid⟩
  · exact ⟨decode_eq_none_iff, fun c h => (decode_eq_some_iff.mp h).encode_eq⟩
  · intro c c' h
    have hread (c : Context) : decode c.encode = some c := by
      have hpayload := decode_of_laidOut (c.laidOut_payload [])
      rwa [payload, List.append_nil] at hpayload
    have hencode : c.encode = c'.encode := congrArg Subtype.val h
    exact Option.some.inj ((hread c).symm.trans (hencode ▸ hread c'))
  · rintro ⟨bs, hlength⟩
    obtain ⟨c, hc⟩ := exists_laidOut (Nat.le_of_eq hlength.symm)
    refine ⟨c, Subtype.ext ?_⟩
    exact hc.encode_eq.trans (List.take_of_length_le (Nat.le_of_eq hlength))

end Context

end MeteredContracts
