/-!
Integer arithmetic of the guest machine. A cell holds 64 bits; a 32-bit integer is kept in one with
its upper half zero.
-/

namespace MeteredContracts.Wasm

abbrev Cell := UInt64

inductive Trap
  | unreachable
  | divisionByZero
  | integerOverflow
  | memoryOutOfBounds
  | tableOutOfBounds
  | nullFunction
  | badSignature
  | stackOverflow
  | outOfFuel
  | interrupted
  deriving DecidableEq, Repr

inductive Width
  | w32
  | w64
  deriving DecidableEq, Repr

inductive Unary
  | eqz
  | clz
  | ctz
  | popcnt
  | signExtend (bytes : Nat)
  deriving DecidableEq, Repr

inductive Binary
  | add | sub | mul | divS | divU | remS | remU
  | and | or | xor | shl | shrS | shrU | rotl | rotr
  | eq | ne | ltS | ltU | gtS | gtU | leS | leU | geS | geU
  deriving DecidableEq, Repr

def Cell.of32 (n : UInt32) : Cell := n.toUInt64

def Cell.ofBool (b : Bool) : Cell := if b then 1 else 0

/-- The lowest `bytes` bytes read as signed, and written in 64 bits. -/
def Cell.signExtend (bytes : Nat) (v : Cell) : Cell :=
  match bytes with
  | 1 => v.toUInt8.toInt8.toInt64.toUInt64
  | 2 => v.toUInt16.toInt16.toInt64.toUInt64
  | 4 => v.toUInt32.toInt32.toInt64.toUInt64
  | _ => v

def Cell.narrow (width : Width) (v : Cell) : Cell :=
  match width with
  | .w32 => .of32 v.toUInt32
  | .w64 => v

def leadingZeros (bits n : Nat) : Nat := if n = 0 then bits else bits - 1 - n.log2

def trailingZeros : Nat → Nat → Nat
  | 0, _ => 0
  | bits + 1, n => if n % 2 = 1 then 0 else trailingZeros bits (n / 2) + 1

def countOnes : Nat → Nat → Nat
  | 0, _ => 0
  | bits + 1, n => n % 2 + countOnes bits (n / 2)

def Unary.apply (width : Width) (op : Unary) (a : Cell) : Cell :=
  let bits := match width with
    | .w32 => 32
    | .w64 => 64
  let n := match width with
    | .w32 => a.toUInt32.toNat
    | .w64 => a.toNat
  match op with
  | .eqz => .ofBool (n == 0)
  | .clz => .ofNat (leadingZeros bits n)
  | .ctz => .ofNat (trailingZeros bits n)
  | .popcnt => .ofNat (countOnes bits n)
  | .signExtend bytes => (a.signExtend bytes).narrow width

def Binary.apply32 (op : Binary) (a b : UInt32) : Except Trap Cell :=
  match op with
  | .add => .ok (.of32 (a + b))
  | .sub => .ok (.of32 (a - b))
  | .mul => .ok (.of32 (a * b))
  | .divS =>
    if b = 0 then .error .divisionByZero
    else if a = 0x80000000 ∧ b = 0xffffffff then .error .integerOverflow
    else .ok (.of32 (a.toInt32 / b.toInt32).toUInt32)
  | .divU => if b = 0 then .error .divisionByZero else .ok (.of32 (a / b))
  | .remS => if b = 0 then .error .divisionByZero else .ok (.of32 (a.toInt32 % b.toInt32).toUInt32)
  | .remU => if b = 0 then .error .divisionByZero else .ok (.of32 (a % b))
  | .and => .ok (.of32 (a &&& b))
  | .or => .ok (.of32 (a ||| b))
  | .xor => .ok (.of32 (a ^^^ b))
  | .shl => .ok (.of32 (a <<< b))
  | .shrS => .ok (.of32 (a.toInt32 >>> b.toInt32).toUInt32)
  | .shrU => .ok (.of32 (a >>> b))
  | .rotl => .ok (.of32 (a <<< b ||| a >>> (32 - b % 32)))
  | .rotr => .ok (.of32 (a >>> b ||| a <<< (32 - b % 32)))
  | .eq => .ok (.ofBool (a == b))
  | .ne => .ok (.ofBool (a != b))
  | .ltS => .ok (.ofBool (a.toInt32 < b.toInt32))
  | .ltU => .ok (.ofBool (a < b))
  | .gtS => .ok (.ofBool (b.toInt32 < a.toInt32))
  | .gtU => .ok (.ofBool (b < a))
  | .leS => .ok (.ofBool (a.toInt32 ≤ b.toInt32))
  | .leU => .ok (.ofBool (a ≤ b))
  | .geS => .ok (.ofBool (b.toInt32 ≤ a.toInt32))
  | .geU => .ok (.ofBool (b ≤ a))

def Binary.apply64 (op : Binary) (a b : UInt64) : Except Trap Cell :=
  match op with
  | .add => .ok (a + b)
  | .sub => .ok (a - b)
  | .mul => .ok (a * b)
  | .divS =>
    if b = 0 then .error .divisionByZero
    else if a = 0x8000000000000000 ∧ b = 0xffffffffffffffff then .error .integerOverflow
    else .ok (a.toInt64 / b.toInt64).toUInt64
  | .divU => if b = 0 then .error .divisionByZero else .ok (a / b)
  | .remS => if b = 0 then .error .divisionByZero else .ok (a.toInt64 % b.toInt64).toUInt64
  | .remU => if b = 0 then .error .divisionByZero else .ok (a % b)
  | .and => .ok (a &&& b)
  | .or => .ok (a ||| b)
  | .xor => .ok (a ^^^ b)
  | .shl => .ok (a <<< b)
  | .shrS => .ok (a.toInt64 >>> b.toInt64).toUInt64
  | .shrU => .ok (a >>> b)
  | .rotl => .ok (a <<< b ||| a >>> (64 - b % 64))
  | .rotr => .ok (a >>> b ||| a <<< (64 - b % 64))
  | .eq => .ok (.ofBool (a == b))
  | .ne => .ok (.ofBool (a != b))
  | .ltS => .ok (.ofBool (a.toInt64 < b.toInt64))
  | .ltU => .ok (.ofBool (a < b))
  | .gtS => .ok (.ofBool (b.toInt64 < a.toInt64))
  | .gtU => .ok (.ofBool (b < a))
  | .leS => .ok (.ofBool (a.toInt64 ≤ b.toInt64))
  | .leU => .ok (.ofBool (a ≤ b))
  | .geS => .ok (.ofBool (b.toInt64 ≤ a.toInt64))
  | .geU => .ok (.ofBool (b ≤ a))

def Binary.apply (width : Width) (op : Binary) (a b : Cell) : Except Trap Cell :=
  match width with
  | .w32 => op.apply32 a.toUInt32 b.toUInt32
  | .w64 => op.apply64 a b

end MeteredContracts.Wasm
