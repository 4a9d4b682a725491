import Mathlib.Algebra.Group.Int.Defs
import Mathlib.Algebra.Group.Nat.Defs
import MeteredContracts.Sandbox.HostFunction

namespace MeteredContracts

open Wasm (Cell)

namespace Wasm.Cell

def upper (r : Cell) : Int := (r.toInt64 >>> 32).toInt

def lower (r : Cell) : Nat := (r &&& 0xffffffff).toNat

theorem toNat_ofInt64 {n : Int} (h : 0 ≤ n) (h' : n < 2 ^ 64) : ((ofInt64 n).toNat : Int) = n := by
  show ((UInt64.ofNat (n % 2 ^ 64).toNat).toNat : Int) = n
  rw [Int.emod_eq_of_lt h h', UInt64.toNat_ofNat_of_lt' (by rw [UInt64.size]; omega),
    Int.toNat_of_nonneg h]

theorem int64_ofInt64 {n : Int} (h : -2 ^ 63 ≤ n) (h' : n < 2 ^ 63) : (ofInt64 n).int64 = n := by
  show (BitVec.ofNat 64 (n % 2 ^ 64).toNat).toInt = n
  rw [BitVec.toInt_ofNat', Int.toNat_of_nonneg (by omega), Int.bmod_def]
  omega

theorem int32_ofInt32 {n : Int} (h : -2 ^ 31 ≤ n) (h' : n < 2 ^ 31) : (ofInt32 n).int32 = n := by
  show (UInt32.ofInt n).toUInt64.toUInt32.toInt32.toInt = n
  rw [UInt32.toUInt32_toUInt64]
  show (BitVec.ofNat 32 (n % 2 ^ 32).toNat).toInt = n
  rw [BitVec.toInt_ofNat', Int.toNat_of_nonneg (by omega), Int.bmod_def]
  omega

theorem int32_ofInt32_of_nonneg {n : Int} (h : 0 ≤ n) (h' : n ≤ Int32.maxValue.toInt) :
    (ofInt32 n).int32 = n := by
  have hmax : Int32.maxValue.toInt = 2 ^ 31 - 1 := rfl
  exact int32_ofInt32 (by omega) (by omega)

theorem upper_eq (r : Cell) : r.upper = r.int64 / 2 ^ 32 := by
  unfold upper int64
  show (r.toInt64 >>> 32).toBitVec.toInt = _
  rw [Int64.toBitVec_shiftRight]
  show (r.toInt64.toBitVec.sshiftRight 32).toInt = _
  rw [BitVec.toInt_sshiftRight, Int.shiftRight_eq_div_pow]
  rfl

theorem lower_eq (r : Cell) : r.lower = r.toNat % 2 ^ 32 := by
  unfold lower
  rw [UInt64.toNat_and]
  exact Nat.and_two_pow_sub_one_eq_mod r.toNat 32

end Wasm.Cell

section Packing

variable {ptr : Int32} {len : Nat}

theorem packRange_bounds (hp : 0 ≤ ptr.toInt) (hl : len < 2 ^ 32) :
    0 ≤ packRange ptr.toInt len ∧ packRange ptr.toInt len < 2 ^ 63 := by
  have hlt : ptr.toInt < 2 ^ 31 := ptr.toInt_lt
  unfold packRange
  rw [UInt32.size]
  omega

theorem int64_packRange (hp : 0 ≤ ptr.toInt) (hl : len < 2 ^ 32) :
    (Cell.ofInt64 (packRange ptr.toInt len)).int64 = packRange ptr.toInt len := by
  have hb := packRange_bounds hp hl
  exact Cell.int64_ofInt64 (by omega) hb.2

theorem upper_packRange (hp : 0 ≤ ptr.toInt) (hl : len < 2 ^ 32) :
    (Cell.ofInt64 (packRange ptr.toInt len)).upper = ptr.toInt := by
  rw [Cell.upper_eq, int64_packRange hp hl, packRange, UInt32.size]
  omega

theorem lower_packRange (hp : 0 ≤ ptr.toInt) (hl : len < 2 ^ 32) :
    (Cell.ofInt64 (packRange ptr.toInt len)).lower = len := by
  have hb := packRange_bounds hp hl
  have hn := Cell.toNat_ofInt64 hb.1 (by omega)
  have hpack : packRange ptr.toInt len = ptr.toInt * 2 ^ 32 + len := rfl
  rw [Cell.lower_eq]
  omega

theorem packRange_eq_or (ptr : Int32) (len : UInt32) :
    Cell.ofInt64 (packRange ptr.toInt len.toNat) =
      ptr.toInt64.toUInt64 <<< 32 ||| len.toUInt64 := by
  have hlen := len.toNat_lt
  -- a negative pointer is extended by its sign, and so stands for itself modulo `2 ^ 64`
  have hptr : (ptr.toInt64.toUInt64.toNat : Int) = ptr.toInt % 2 ^ 64 := by
    have hlt := ptr.toInt64.toBitVec.isLt
    show (ptr.toInt64.toBitVec.toNat : Int) = _
    rw [← Int32.toInt_toInt64]
    show _ = ptr.toInt64.toBitVec.toInt % 2 ^ 64
    rw [BitVec.toInt_eq_toNat_bmod, Int.bmod_def]
    omega
  have hshift : ∀ q : Nat, q <<< 32 % 2 ^ 64 = (q % 2 ^ 32) <<< 32 := by
    intro q
    rw [Nat.shiftLeft_eq, Nat.shiftLeft_eq]
    omega
  apply UInt64.toNat_inj.mp
  rw [UInt64.toNat_or, UInt64.toNat_shiftLeft, UInt32.toNat_toUInt64]
  show _ = ptr.toInt64.toUInt64.toNat <<< 32 % 2 ^ 64 ||| len.toNat
  rw [hshift, ← Nat.shiftLeft_add_eq_or_of_lt hlen, Nat.shiftLeft_eq]
  show (UInt64.ofNat (packRange ptr.toInt len.toNat % 2 ^ 64).toNat).toNat = _
  unfold packRange
  rw [UInt64.toNat_ofNat_of_lt' (by rw [UInt64.size]; omega), UInt32.size]
  omega

end Packing

end MeteredContracts
