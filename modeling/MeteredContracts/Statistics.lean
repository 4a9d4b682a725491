import MeteredContracts.Bytes

namespace MeteredContracts

structure Statistics where
  fuelUsed : UInt64 := 0
  calls : UInt64 := 0
  cacheHits : UInt64 := 0
  averageTime : UInt64 := 0
  deriving DecidableEq, Repr, Inhabited

namespace Statistics

def nextAverage (average calls : UInt64) (micros : Nat) : UInt64 :=
  .ofNat ((average.toNat * calls.toNat + min micros (UInt64.size - 1)) / (calls.toNat + 1))

def record (s : Statistics) (fuel micros : Nat) (cacheHit : Bool) : Statistics where
  fuelUsed := s.fuelUsed + .ofNat fuel
  calls := s.calls + 1
  cacheHits := if cacheHit then s.cacheHits + 1 else s.cacheHits
  averageTime := nextAverage s.averageTime s.calls micros

end Statistics

end MeteredContracts
