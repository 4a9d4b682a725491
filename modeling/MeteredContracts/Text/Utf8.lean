import MeteredContracts.Bytes

namespace MeteredContracts.Utf8

/-- An ill-formed sequence: the well-formed bytes before it, and how many bytes it takes up, or
nothing where the text ends inside it. -/
structure Fault where
  index : Nat
  length : Option Nat
  deriving DecidableEq, Repr

def Fault.message (f : Fault) : String :=
  match f.length with
  | some n => s!"invalid utf-8 sequence of {n} bytes from index {f.index}"
  | none => s!"incomplete utf-8 byte sequence from index {f.index}"

inductive Head
  | char (c : Char) (rest : Bytes)
  | bad (length : Nat) (rest : Bytes)
  | cut

def isTail (b : UInt8) : Bool := 0x80 ≤ b && b ≤ 0xbf

/-- The least and the greatest second byte after a first one, and how many bytes follow it. -/
def lead (b : UInt8) : Option (UInt8 × UInt8 × Nat) :=
  if 0xc2 ≤ b && b ≤ 0xdf then some (0x80, 0xbf, 1)
  else if b = 0xe0 then some (0xa0, 0xbf, 2)
  else if b = 0xed then some (0x80, 0x9f, 2)
  else if 0xe1 ≤ b && b ≤ 0xef then some (0x80, 0xbf, 2)
  else if b = 0xf0 then some (0x90, 0xbf, 3)
  else if 0xf1 ≤ b && b ≤ 0xf3 then some (0x80, 0xbf, 3)
  else if b = 0xf4 then some (0x80, 0x8f, 3)
  else none

def leadBits (b : UInt8) (count : Nat) : Nat := b.toNat % (64 >>> count)

def tails : Nat → Nat → Nat → Bytes → Head
  | 0, _, value, rest => .char (Char.ofNat value) rest
  | _ + 1, _, _, [] => .cut
  | count + 1, seen, value, b :: rest =>
    if isTail b then tails count (seen + 1) (value * 64 + b.toNat % 64) rest
    else .bad seen (b :: rest)

def head : UInt8 → Bytes → Head
  | b, rest =>
    if b < 0x80 then .char (Char.ofNat b.toNat) rest
    else match lead b, rest with
      | none, _ => .bad 1 rest
      | some _, [] => .cut
      | some (low, high, count), c :: rest =>
        if low ≤ c && c ≤ high then
          tails (count - 1) 2 (leadBits b count * 64 + c.toNat % 64) rest
        else .bad 1 (c :: rest)

def decodeFrom : Nat → Nat → Bytes → List Char → Except Fault (List Char)
  | 0, _, _, acc => .ok acc.reverse
  | _ + 1, _, [], acc => .ok acc.reverse
  | fuel + 1, index, b :: rest, acc =>
    match head b rest with
    | .char c rest' => decodeFrom fuel (index + 1 + (rest.length - rest'.length)) rest' (c :: acc)
    | .bad length _ => .error ⟨index, some length⟩
    | .cut => .error ⟨index, none⟩

def decode (bs : Bytes) : Except Fault String :=
  (decodeFrom bs.length 0 bs []).map String.ofList

def decodeLossyFrom : Nat → Bytes → List Char → List Char
  | 0, _, acc => acc.reverse
  | _ + 1, [], acc => acc.reverse
  | fuel + 1, b :: rest, acc =>
    match head b rest with
    | .char c rest => decodeLossyFrom fuel rest (c :: acc)
    | .bad _ rest => decodeLossyFrom fuel rest ('\ufffd' :: acc)
    | .cut => ('\ufffd' :: acc).reverse

def decodeLossy (bs : Bytes) : String := .ofList (decodeLossyFrom bs.length bs [])

end MeteredContracts.Utf8
