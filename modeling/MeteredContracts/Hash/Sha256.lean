import MeteredContracts.Bytes

namespace MeteredContracts.Sha256

def roundConstants : List UInt32 := [
  0x428a2f98, 0x71374491, 0xb5c0fbcf, 0xe9b5dba5, 0x3956c25b, 0x59f111f1, 0x923f82a4, 0xab1c5ed5,
  0xd807aa98, 0x12835b01, 0x243185be, 0x550c7dc3, 0x72be5d74, 0x80deb1fe, 0x9bdc06a7, 0xc19bf174,
  0xe49b69c1, 0xefbe4786, 0x0fc19dc6, 0x240ca1cc, 0x2de92c6f, 0x4a7484aa, 0x5cb0a9dc, 0x76f988da,
  0x983e5152, 0xa831c66d, 0xb00327c8, 0xbf597fc7, 0xc6e00bf3, 0xd5a79147, 0x06ca6351, 0x14292967,
  0x27b70a85, 0x2e1b2138, 0x4d2c6dfc, 0x53380d13, 0x650a7354, 0x766a0abb, 0x81c2c92e, 0x92722c85,
  0xa2bfe8a1, 0xa81a664b, 0xc24b8b70, 0xc76c51a3, 0xd192e819, 0xd6990624, 0xf40e3585, 0x106aa070,
  0x19a4c116, 0x1e376c08, 0x2748774c, 0x34b0bcb5, 0x391c0cb3, 0x4ed8aa4a, 0x5b9cca4f, 0x682e6ff3,
  0x748f82ee, 0x78a5636f, 0x84c87814, 0x8cc70208, 0x90befffa, 0xa4506ceb, 0xbef9a3f7, 0xc67178f2]

structure State where
  a : UInt32
  b : UInt32
  c : UInt32
  d : UInt32
  e : UInt32
  f : UInt32
  g : UInt32
  h : UInt32

def State.initial : State :=
  ⟨0x6a09e667, 0xbb67ae85, 0x3c6ef372, 0xa54ff53a, 0x510e527f, 0x9b05688c, 0x1f83d9ab, 0x5be0cd19⟩

def State.add (s t : State) : State :=
  ⟨s.a + t.a, s.b + t.b, s.c + t.c, s.d + t.d, s.e + t.e, s.f + t.f, s.g + t.g, s.h + t.h⟩

def State.words (s : State) : List UInt32 := [s.a, s.b, s.c, s.d, s.e, s.f, s.g, s.h]

def rotate (x n : UInt32) : UInt32 := x >>> n ||| x <<< (32 - n)

def State.round (s : State) (k w : UInt32) : State :=
  let s1 := rotate s.e 6 ^^^ rotate s.e 11 ^^^ rotate s.e 25
  let choice := (s.e &&& s.f) ^^^ ((~~~ s.e) &&& s.g)
  let t1 := s.h + s1 + choice + k + w
  let s0 := rotate s.a 2 ^^^ rotate s.a 13 ^^^ rotate s.a 22
  let majority := (s.a &&& s.b) ^^^ (s.a &&& s.c) ^^^ (s.b &&& s.c)
  ⟨t1 + (s0 + majority), s.a, s.b, s.c, s.d + t1, s.e, s.f, s.g⟩

def extendSchedule : Nat → Array UInt32 → Array UInt32
  | 0, ws => ws
  | count + 1, ws =>
    let n := ws.size
    let x := ws.getD (n - 15) 0
    let y := ws.getD (n - 2) 0
    let s0 := rotate x 7 ^^^ rotate x 18 ^^^ x >>> 3
    let s1 := rotate y 17 ^^^ rotate y 19 ^^^ y >>> 10
    extendSchedule count (ws.push (ws.getD (n - 16) 0 + s0 + ws.getD (n - 7) 0 + s1))

def wordOf (bs : Bytes) : UInt32 := bs.foldl (fun w b => w <<< 8 ||| b.toUInt32) 0

def wordBytes (w : UInt32) : Bytes :=
  [(w >>> 24).toUInt8, (w >>> 16).toUInt8, (w >>> 8).toUInt8, w.toUInt8]

def blockWords : Nat → Bytes → List UInt32
  | 0, _ => []
  | n + 1, bs => wordOf (bs.take 4) :: blockWords n (bs.drop 4)

def compress (s : State) (block : Bytes) : State :=
  let ws := extendSchedule 48 (blockWords 16 block).toArray
  s.add ((roundConstants.zip ws.toList).foldl (fun s (k, w) => s.round k w) s)

def paddingZeros (size : Nat) : Nat := (119 - size % 64) % 64

def pad (message : Bytes) : Bytes :=
  message ++ 0x80 :: List.replicate (paddingZeros message.length) 0
    ++ (Bytes.ofNatLE 8 (8 * message.length)).reverse

theorem length_pad (message : Bytes) : (pad message).length % 64 = 0 := by
  simp only [pad, paddingZeros, List.length_append, List.length_cons, List.length_replicate,
    List.length_reverse, Bytes.length_ofNatLE]
  omega

def compressAll : Nat → State → Bytes → State
  | 0, s, _ => s
  | blocks + 1, s, bs => compressAll blocks (compress s (bs.take 64)) (bs.drop 64)

def hash (message : Bytes) : Bytes :=
  let padded := pad message
  (compressAll (padded.length / 64) .initial padded).words.flatMap wordBytes

theorem length_hash (message : Bytes) : (hash message).length = 32 := rfl

end MeteredContracts.Sha256
