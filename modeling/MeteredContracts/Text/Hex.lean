import MeteredContracts.Bytes
import MeteredContracts.Text.Quoted

namespace MeteredContracts.Hex

def digit (n : Nat) : Char :=
  if n < 10 then Char.ofNat (48 + n) else Char.ofNat (87 + n)

def pair (b : UInt8) : List Char := [digit (b.toNat / 16), digit (b.toNat % 16)]

def encode (bs : Bytes) : String := .ofList (bs.flatMap pair)

def value? (b : UInt8) : Option Nat :=
  let n := b.toNat
  if 48 ≤ n ∧ n ≤ 57 then some (n - 48)
  else if 65 ≤ n ∧ n ≤ 70 then some (n - 55)
  else if 97 ≤ n ∧ n ≤ 102 then some (n - 87)
  else none

inductive Fault
  | oddLength
  | badDigit (byte : UInt8) (index : Nat)
  deriving DecidableEq, Repr

def Fault.message : Fault → String
  | .oddLength => "Odd number of digits"
  | .badDigit b i => s!"Invalid character {Quoted.char (Char.ofNat b.toNat)} at position {i}"

def decodeFrom (index : Nat) : Bytes → Except Fault Bytes
  | high :: low :: rest =>
    match value? high, value? low with
    | none, _ => .error (.badDigit high index)
    | some _, none => .error (.badDigit low (index + 1))
    | some h, some l => (decodeFrom (index + 2) rest).map (UInt8.ofNat (16 * h + l) :: ·)
  | [_] => .error .oddLength
  | [] => .ok []

def decode (text : Bytes) : Except Fault Bytes :=
  if text.length % 2 = 1 then .error .oddLength else decodeFrom 0 text

def stripMarks : Bytes → Bytes
  | 0x30 :: 0x78 :: rest => stripMarks rest
  | text => text

def decodeMarked (text : String) : Except Fault Bytes := decode (stripMarks (.ofText text))

end MeteredContracts.Hex
