import Mathlib.Tactic.Ring
import MeteredContracts.Statistics

/-!
The running average against the mean of all samples. Each sample is rounded down, and what is cut
off is never made good: it adds up, and the average falls behind the mean by one for as many
microseconds as there are samples.
-/

namespace MeteredContracts

namespace Statistics

structure Sample where
  fuel : Nat
  micros : Nat
  cacheHit : Bool
  deriving DecidableEq, Repr

def Sample.time (x : Sample) : Nat := min x.micros (UInt64.size - 1)

theorem Sample.time_le (x : Sample) : x.time ≤ UInt64.size - 1 := Nat.min_le_right _ _

theorem Sample.time_of_lt {x : Sample} (h : x.micros < UInt64.size) : x.time = x.micros :=
  Nat.min_eq_left (Nat.le_pred_of_lt h)

def add (s : Statistics) (x : Sample) : Statistics := s.record x.fuel x.micros x.cacheHit

def addAll (s : Statistics) (xs : List Sample) : Statistics := xs.foldl add s

def weight (s : Statistics) : Nat := s.averageTime.toNat * s.calls.toNat

def cutOff (s : Statistics) (x : Sample) : Nat := (s.weight + x.time) % (s.calls.toNat + 1)

def totalCutOff : Statistics → List Sample → Nat
  | _, [] => 0
  | s, x :: xs => s.cutOff x + totalCutOff (s.add x) xs

def totalTime (xs : List Sample) : Nat := (xs.map Sample.time).sum

section Step

variable (s : Statistics) (x : Sample)

theorem averageTime_add :
    (s.add x).averageTime.toNat = (s.weight + x.time) / (s.calls.toNat + 1) := by
  have hold : s.weight ≤ (UInt64.size - 1) * s.calls.toNat :=
    Nat.mul_le_mul_right _ (Nat.le_pred_of_lt s.averageTime.toNat_lt)
  have hsum : s.weight + x.time ≤ (s.calls.toNat + 1) * (UInt64.size - 1) := by
    rw [Nat.mul_comm, Nat.mul_add_one]
    exact Nat.add_le_add hold x.time_le
  -- the mean of numbers of 64 bits has 64 bits
  have hmean := Nat.div_le_of_le_mul hsum
  exact UInt64.toNat_ofNat_of_lt' (Nat.lt_of_le_of_lt hmean (by decide))

variable {s}

theorem calls_add (h : s.calls.toNat + 1 < UInt64.size) :
    (s.add x).calls.toNat = s.calls.toNat + 1 := by
  show (s.calls + 1).toNat = s.calls.toNat + 1
  rw [UInt64.toNat_add]
  exact Nat.mod_eq_of_lt h

theorem weight_add (h : s.calls.toNat + 1 < UInt64.size) :
    (s.add x).weight + s.cutOff x = s.weight + x.time := by
  rw [weight, averageTime_add, calls_add x h, Nat.mul_comm]
  exact Nat.div_add_mod _ _

theorem cutOff_le : s.cutOff x ≤ s.calls.toNat :=
  Nat.le_of_lt_succ (Nat.mod_lt _ (Nat.succ_pos _))

end Step

theorem calls_addAll {s : Statistics} (xs : List Sample)
    (h : s.calls.toNat + xs.length < UInt64.size) :
    (s.addAll xs).calls.toNat = s.calls.toNat + xs.length := by
  induction xs generalizing s with
  | nil => rfl
  | cons x xs ih =>
    rw [List.length_cons] at h ⊢
    have hfirst := calls_add x (s := s) (by omega)
    have hrest := ih (s := s.add x) (by omega)
    show ((s.add x).addAll xs).calls.toNat = _
    omega

theorem weight_addAll {s : Statistics} (xs : List Sample)
    (h : s.calls.toNat + xs.length < UInt64.size) :
    (s.addAll xs).weight + s.totalCutOff xs = s.weight + totalTime xs := by
  induction xs generalizing s with
  | nil => rfl
  | cons x xs ih =>
    rw [List.length_cons] at h
    have hcalls := calls_add x (s := s) (by omega)
    have hfirst := weight_add x (s := s) (by omega)
    have hrest := ih (s := s.add x) (by omega)
    have htime : totalTime (x :: xs) = x.time + totalTime xs := List.sum_cons
    show ((s.add x).addAll xs).weight + (s.cutOff x + (s.add x).totalCutOff xs) = _
    omega

theorem totalCutOff_le {s : Statistics} (xs : List Sample)
    (h : s.calls.toNat + xs.length < UInt64.size) :
    2 * s.totalCutOff xs + xs.length ≤ xs.length * (2 * s.calls.toNat + xs.length) := by
  induction xs generalizing s with
  | nil => exact Nat.le_of_eq (Nat.zero_mul _).symm
  | cons x xs ih =>
    rw [List.length_cons] at h ⊢
    have hfirst := cutOff_le x (s := s)
    have hrest := ih (s := s.add x) (by rw [calls_add x (by omega)]; omega)
    rw [calls_add x (by omega)] at hrest
    show 2 * (s.cutOff x + (s.add x).totalCutOff xs) + (xs.length + 1) ≤ _
    calc 2 * (s.cutOff x + (s.add x).totalCutOff xs) + (xs.length + 1)
        = 2 * s.cutOff x + 1 + (2 * (s.add x).totalCutOff xs + xs.length) := by ring
      _ ≤ 2 * s.calls.toNat + 1 + xs.length * (2 * (s.calls.toNat + 1) + xs.length) := by omega
      _ = (xs.length + 1) * (2 * s.calls.toNat + (xs.length + 1)) := by ring

section Start

variable (xs : List Sample)

theorem calls_of_start (h : xs.length < UInt64.size) :
    (addAll {} xs).calls.toNat = xs.length := by
  have hcalls := calls_addAll (s := {}) xs
  rw [show ({} : Statistics).calls.toNat = 0 from rfl, Nat.zero_add] at hcalls
  exact hcalls h

theorem weight_of_start (h : xs.length < UInt64.size) :
    (addAll {} xs).averageTime.toNat * xs.length + totalCutOff {} xs = totalTime xs := by
  have hweight := weight_addAll (s := {}) xs
  rw [weight, calls_of_start xs h, weight, show ({} : Statistics).calls.toNat = 0 from rfl,
    Nat.zero_add, Nat.mul_zero, Nat.zero_add] at hweight
  exact hweight h

theorem totalCutOff_of_start (h : xs.length < UInt64.size) :
    2 * totalCutOff {} xs ≤ xs.length * (xs.length - 1) := by
  have hle := totalCutOff_le (s := {}) xs
  rw [show ({} : Statistics).calls.toNat = 0 from rfl, Nat.mul_zero, Nat.zero_add] at hle
  rw [Nat.mul_sub_one]
  exact Nat.le_sub_of_add_le (hle h)

end Start

def unnoticed (n : Nat) : List Sample := (List.range n).map fun i => ⟨0, i, false⟩

theorem unnoticed_succ (n : Nat) : unnoticed (n + 1) = unnoticed n ++ [⟨0, n, false⟩] := by
  simp only [unnoticed, List.range_succ, List.map_append, List.map_singleton]

theorem length_unnoticed (n : Nat) : (unnoticed n).length = n := by
  simp only [unnoticed, List.length_map, List.length_range]

theorem averageTime_unnoticed {n : Nat} (h : n < UInt64.size) :
    (addAll {} (unnoticed n)).averageTime.toNat = 0 := by
  induction n with
  | zero => rfl
  | succ n ih =>
    have hcalls := calls_of_start (unnoticed n)
    rw [length_unnoticed] at hcalls
    have htime := Sample.time_of_lt (x := ⟨0, n, false⟩) (Nat.lt_of_succ_lt h)
    rw [unnoticed_succ, addAll, List.foldl_append]
    show ((addAll {} (unnoticed n)).add ⟨0, n, false⟩).averageTime.toNat = 0
    rw [averageTime_add, weight, ih (by omega), hcalls (by omega), htime, Nat.zero_mul,
      Nat.zero_add]
    exact Nat.div_eq_of_lt (Nat.lt_succ_self n)

theorem two_mul_totalTime_unnoticed {n : Nat} (h : n < UInt64.size) :
    2 * totalTime (unnoticed n) = n * (n - 1) := by
  induction n with
  | zero => rfl
  | succ n ih =>
    have htime := Sample.time_of_lt (x := ⟨0, n, false⟩) (Nat.lt_of_succ_lt h)
    have htotal : totalTime (unnoticed (n + 1)) = totalTime (unnoticed n) + n := by
      rw [totalTime, unnoticed_succ, List.map_append, List.sum_append, List.map_singleton,
        List.sum_singleton, htime, totalTime]
    rw [htotal, Nat.mul_add, ih (by omega), Nat.add_sub_cancel]
    cases n with
    | zero => rfl
    | succ n =>
      rw [Nat.add_sub_cancel]
      ring

/-- The average is never above the mean. It is the mean, rounded down, if and only if all that was
cut off on the way is less than a microsecond for each sample; else it is behind, by up to half as
many microseconds as there are samples. -/
theorem average_exact_iff (samples : List Sample) (h : samples.length < UInt64.size) :
    let s := addAll {} samples
    let n := samples.length
    let mean := totalTime samples / n
    s.calls.toNat = n ∧
      mean = s.averageTime.toNat + totalCutOff {} samples / n ∧
      (s.averageTime.toNat = mean ↔ totalCutOff {} samples < n ∨ samples = []) ∧
      mean ≤ s.averageTime.toNat + (n - 1) / 2 ∧
      ∃ worst : List Sample, worst.length = n ∧ totalTime worst / n = (n - 1) / 2 ∧
        (addAll {} worst).averageTime.toNat = 0 := by
  obtain rfl | hne := eq_or_ne samples []
  · exact ⟨rfl, rfl, by decide, by decide, [], rfl, by decide, rfl⟩
  intro s n mean
  have hn : 0 < n := List.length_pos_iff.mpr hne
  have hmean : mean = s.averageTime.toNat + totalCutOff {} samples / n := by
    show totalTime samples / n = _
    rw [← weight_of_start samples h, Nat.mul_comm, Nat.mul_add_div hn]
  -- twice the time of the worst samples is `n * (n - 1)`, and no more can be cut off
  have half (t : Nat) : t / n = 2 * t / (n * 2) := by
    rw [Nat.mul_comm n 2, Nat.mul_div_mul_left _ _ Nat.two_pos]
  have hmost : n * (n - 1) / (n * 2) = (n - 1) / 2 := Nat.mul_div_mul_left _ _ hn
  refine ⟨calls_of_start samples h, hmean, ?_, ?_, unnoticed n, length_unnoticed n, ?_,
    averageTime_unnoticed h⟩
  · rw [hmean, Nat.left_eq_add, Nat.div_eq_zero_iff]
    constructor
    · rintro (hzero | hlt)
      · exact .inr (List.length_eq_zero_iff.mp hzero)
      · exact .inl hlt
    · rintro (hlt | hnil)
      · exact .inr hlt
      · exact absurd hnil hne
  · rw [hmean, half, ← hmost]
    exact Nat.add_le_add_left (Nat.div_le_div_right (totalCutOff_of_start samples h)) _
  · rw [half, two_mul_totalTime_unnoticed h, hmost]

theorem average_exact_iff_of_four :
    let samples : List Sample := [⟨0, 10, false⟩, ⟨5, 31, true⟩, ⟨0, 52, false⟩, ⟨8, 7, true⟩]
    samples.length < UInt64.size ∧ totalTime samples / samples.length = 25 ∧
      (addAll {} samples).averageTime.toNat = 24 ∧ totalCutOff {} samples = 4 ∧
      ((addAll {} samples).averageTime.toNat = totalTime samples / samples.length ↔
        totalCutOff {} samples < samples.length ∨ samples = []) := by
  intro samples
  have h : samples.length < UInt64.size := by decide
  obtain ⟨-, -, hexact, -⟩ := average_exact_iff samples h
  exact ⟨h, by decide, by decide, by decide, hexact⟩

theorem average_falls_short :
    let samples : List Sample := [⟨0, 0, false⟩, ⟨0, 1, false⟩, ⟨0, 2, false⟩]
    samples.length < UInt64.size ∧ (∀ x ∈ samples, x.micros < UInt64.size) ∧
      (samples.map Sample.micros).sum / samples.length = 1 ∧
      (addAll {} samples).averageTime.toNat = 0 := by
  decide

end Statistics

end MeteredContracts
