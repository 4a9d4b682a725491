import MeteredContracts.Bytes
import MeteredContracts.Wasm.Numeric

namespace MeteredContracts.Wasm

def pageSize : Nat := 65536

/-- `limit` is the number of pages that growing may reach. -/
structure Memory where
  bytes : ByteArray
  limit : Nat

namespace Memory

def size (m : Memory) : Nat := m.bytes.size

def pages (m : Memory) : Nat := m.size / pageSize

def zeroPage : ByteArray := ⟨Array.replicate pageSize 0⟩

def addPages (b : ByteArray) : Nat → ByteArray
  | 0 => b
  | n + 1 => addPages (b ++ zeroPage) n

def new (pages limit : Nat) : Memory := ⟨addPages .empty pages, limit⟩

def read? (m : Memory) (start len : Nat) : Option Bytes :=
  if start + len ≤ m.size then some (m.bytes.extract start (start + len)).data.toList else none

def overwrite (b : ByteArray) (start : Nat) : Bytes → ByteArray
  | [] => b
  | x :: xs => overwrite (b.set! start x) (start + 1) xs

def write? (m : Memory) (start : Nat) (bs : Bytes) : Option Memory :=
  if start + bs.length ≤ m.size then some ⟨overwrite m.bytes start bs, m.limit⟩ else none

def gather (b : ByteArray) (start : Nat) : Nat → Cell
  | 0 => 0
  | count + 1 => (b.get! start).toUInt64 ||| gather b (start + 1) count <<< 8

def scatter (b : ByteArray) (start : Nat) (v : Cell) : Nat → ByteArray
  | 0 => b
  | count + 1 => scatter (b.set! start v.toUInt8) (start + 1) (v >>> 8) count

/-- Copies `len` bytes as they are before any of them is overwritten. -/
def move (b : ByteArray) (target start len : Nat) : ByteArray :=
  (b.extract start (start + len)).copySlice 0 b target len

def fill (b : ByteArray) (start : Nat) (x : UInt8) : Nat → ByteArray
  | 0 => b
  | count + 1 => fill (b.set! start x) (start + 1) x count

def load? (m : Memory) (start count : Nat) : Option Cell :=
  if start + count ≤ m.size then some (gather m.bytes start count) else none

def grow? (m : Memory) (delta : Nat) : Option (Nat × Memory) :=
  if m.pages + delta ≤ m.limit then some (m.pages, ⟨addPages m.bytes delta, m.limit⟩) else none

end Memory

end MeteredContracts.Wasm
