import Mathlib.Algebra.BigOperators.Ring.List
import Mathlib.Algebra.Order.BigOperators.Group.List
import MeteredContracts.Proofs.Contexts
import MeteredContracts.Proofs.FuelConservation
import MeteredContracts.Proofs.ServedFrames

/-!
The counter of fuel. A frame reports what the frames that it nests have burned along with what it
has burned itself, and every report is added to the counter. Thus fuel is counted once for the frame
that burns it, and again for each of the frames around that one.
-/

namespace MeteredContracts

namespace Frame

variable (p : Platform)

def reported (l : List Frame) : Nat := (l.map fun fr => (p.run fr).1.fuelUsed).sum

def burned (fr : Frame) : Nat := (p.run fr).1.fuelUsed - reported p (fr.nested p)

def depthBelow (fr root : Frame) : Nat := root.levels - fr.levels

/-- What of a report is counted again: what a frame has burned, once for each frame around it. -/
def repeated (root : Frame) : Nat :=
  ((root.served p).map fun fr => fr.depthBelow root * fr.burned p).sum

variable {p} {fr root : Frame} {ss : Session} {h : HostCall}

theorem reported_append (p : Platform) (l l' : List Frame) :
    reported p (l ++ l') = reported p l + reported p l' := by
  rw [reported, List.map_append, List.sum_append_nat]
  rfl

theorem foldl_recorded_fuelUsed (p : Platform) (l : List Frame) (s : Statistics) :
    (l.foldl (recorded p) s).fuelUsed = s.fuelUsed + .ofNat (reported p l) := by
  induction l generalizing s with
  | nil => exact (UInt64.add_zero s.fuelUsed).symm
  | cons fr l ih =>
    rw [List.foldl_cons, ih, ← List.singleton_append, reported_append, UInt64.ofNat_add,
      ← UInt64.add_assoc]
    simp only [reported, recorded, Statistics.record, List.map_cons, List.map_nil,
      List.sum_singleton]

theorem pays_accumulates (p : Platform) : Turn.Accumulates fun l s t =>
    t.guest.meter.remaining + reported p l ≤ s.guest.meter.remaining where
  guest h := h.meter.remaining
  trans h h' := by
    rw [reported_append]
    omega

theorem Serves.pays (hh : fr.Serves p h) :
    h.run.2.guest.meter.remaining + reported p (h.frame? fr.levels).toList ≤
      h.scene.guest.meter.remaining := by
  cases hfr : h.frame? fr.levels with
  | none => exact (HostCall.run_spends hh.caller.2).remaining
  | some fr' =>
    have hm : fr.Makes p h fr' := makes_iff.mpr ⟨hh, hfr⟩
    simpa [reported] using Nat.le_of_eq hm.cost

theorem fuelUsed_of_unserved (hs : fr.session? p = none) : (p.run fr).1.fuelUsed = 0 := by
  have hc := p.course fr
  generalize p.run fr = r at hc ⊢
  cases hc with
  | unloaded | unfit | unstarted => rfl
  | served _ _ _ hs' _ _ =>
    rw [hs] at hs'
    cases hs'

theorem reported_nested_le (p : Platform) (fr : Frame) :
    reported p (fr.nested p) ≤ (p.run fr).1.fuelUsed := by
  cases hs : fr.session? p with
  | none =>
    rw [nested, hs]
    exact Nat.zero_le _
  | some ss =>
    have hpays : (ss.sandbox.invoke fr.call.function fr.call.payload
          ss.world).2.1.guest.meter.remaining + reported p (fr.nested p) ≤
        ss.sandbox.guest.meter.remaining := by
      rw [nested, hs]
      dsimp only
      rw [List.filterMap_eq_flatMap_toList]
      exact Sandbox.invoke_accumulates (pays_accumulates p) _
        (fun h hh => Serves.pays ⟨ss, hs, hh⟩) fun _ => Nat.le_refl _
    have hbudget := (session_spends hs).remaining
    rw [Meter.remaining_new] at hbudget
    rw [run_of_session hs, ss.finish_eq]
    show _ ≤ (ss.sandbox.invoke fr.call.function fr.call.payload ss.world).2.1.consumedFuel
    rw [Sandbox.consumedFuel, (invoke_spends hs).consumed]
    omega

theorem burned_add (p : Platform) (fr : Frame) :
    fr.burned p + reported p (fr.nested p) = (p.run fr).1.fuelUsed :=
  Nat.sub_add_cancel (fr.reported_nested_le p)

theorem sum_served (f : Frame → Nat) (hf : fr.session? p = none → f fr = 0) :
    ((fr.served p).map f).sum =
      ((fr.nested p).map fun fr' => ((fr'.served p).map f).sum).sum + f fr := by
  have hself : ((fr.itself p).map f).sum = f fr := by
    unfold itself
    cases hs : fr.session? p with
    | none => exact (hf hs).symm
    | some ss => exact List.sum_singleton
  rw [served_eq, List.map_append, List.sum_append_nat, hself, List.map_flatMap, List.flatMap_def,
    List.sum_flatten, List.map_map]
  rfl

theorem burned_of_unserved (hs : fr.session? p = none) : fr.burned p = 0 := by
  rw [burned, fuelUsed_of_unserved hs, Nat.zero_sub]

theorem sum_burned (p : Platform) (fr : Frame) :
    ((fr.served p).map (·.burned p)).sum = (p.run fr).1.fuelUsed := by
  induction fr using of_nested (p := p) with
  | step fr ih =>
    rw [sum_served _ burned_of_unserved, ← fr.burned_add p, Nat.add_comm]
    congr 2
    exact List.map_congr_left fun fr' hn => ih fr' (mem_nested.mp hn)

theorem tree_levels_le (ht : Relation.ReflTransGen (Nests p) root fr) :
    fr.levels ≤ root.levels := by
  induction ht with
  | refl => exact Nat.le_refl _
  | tail _ hn ih =>
    have hlevels := hn.levels_eq
    omega

theorem Below.depthBelow_eq {n : Nat} (hb : root.Below p n fr) : fr.depthBelow root = n := by
  have hlevels := hb.levels_eq
  rw [depthBelow]
  omega

theorem sum_depthBelow_of_nests {fr' : Frame} (hn : fr.Nests p fr') :
    ((fr'.served p).map fun below => below.depthBelow fr * below.burned p).sum =
      fr'.repeated p + (p.run fr').1.fuelUsed := by
  have hdepth : ∀ below ∈ fr'.served p, below.depthBelow fr * below.burned p =
      below.depthBelow fr' * below.burned p + below.burned p := by
    intro below hbelow
    have hle := tree_levels_le (mem_served.mp hbelow).1
    have hone : below.depthBelow fr = below.depthBelow fr' + 1 := by
      rw [depthBelow, depthBelow, ← hn.levels_eq]
      omega
    rw [hone, Nat.succ_mul]
  rw [List.map_congr_left hdepth, List.sum_map_add, sum_burned]
  rfl

theorem repeated_eq (p : Platform) (fr : Frame) : fr.repeated p =
    ((fr.nested p).map fun fr' => fr'.repeated p + (p.run fr').1.fuelUsed).sum := by
  have hself : fr.depthBelow fr * fr.burned p = 0 := by rw [depthBelow, Nat.sub_self, Nat.zero_mul]
  rw [repeated, sum_served _ fun _ => hself, hself, Nat.add_zero]
  congr 1
  exact List.map_congr_left fun fr' hn => sum_depthBelow_of_nests (mem_nested.mp hn)

theorem reported_served (p : Platform) (fr : Frame) :
    reported p (fr.served p) = (p.run fr).1.fuelUsed + fr.repeated p := by
  -- what a nested frame reports is counted in its own tree, and once more in the report around it
  induction fr using of_nested (p := p) with
  | step fr ih =>
    rw [reported, sum_served _ fuelUsed_of_unserved, repeated_eq, Nat.add_comm]
    congr 2
    refine List.map_congr_left fun fr' hn => ?_
    rw [Nat.add_comm]
    exact ih fr' (mem_nested.mp hn)

theorem repeated_le (p : Platform) (fr : Frame) :
    fr.repeated p ≤ fr.levels * (p.run fr).1.fuelUsed := by
  rw [← sum_burned, ← List.sum_map_mul_left]
  exact List.sum_le_sum fun below _ => Nat.mul_le_mul_right _ (Nat.sub_le _ _)

end Frame

/-- The counter of fuel grows by what a call reports and by what is repeated of it. The growth and
the report agree exactly if what is repeated is a multiple of the size of the counter; and unless it
overflows, the counter grows by no more than one budget for each level that there can be. -/
theorem Platform.fuel_counted_at_each_level (p : Platform) (cancel : Cancellation) (call : Call)
    (w : World) :
    let root := p.root cancel call w
    let used := (p.execute cancel call w).1.fuelUsed
    let after := (p.execute cancel call w).2.statistics.fuelUsed
    (∀ n fr, root.Below p n fr → fr.depthBelow root = n) ∧
      ((root.served p).map (·.burned p)).sum = used ∧
      after = w.statistics.fuelUsed + .ofNat (used + root.repeated p) ∧
      (after = w.statistics.fuelUsed + .ofNat used ↔ UInt64.size ∣ root.repeated p) ∧
      used + root.repeated p ≤ (root.levels + 1) * call.fuel.toNat := by
  intro root used after
  have hafter : after = w.statistics.fuelUsed + .ofNat (used + root.repeated p) := by
    have hcounts := (root.run_recounts p).statistics
    show (p.run root).2.statistics.fuelUsed = _
    rw [hcounts, Frame.foldl_recorded_fuelUsed, root.reported_served p]
    rfl
  refine ⟨fun n fr hb => hb.depthBelow_eq, root.sum_burned p, hafter, ?_, ?_⟩
  · rw [hafter, UInt64.add_right_inj, UInt64.ofNat_add, UInt64.add_eq_left,
      UInt64.ofNat_eq_iff_mod_eq_toNat, Nat.dvd_iff_mod_eq_zero]
    rfl
  · have hused : used ≤ call.fuel.toNat := root.fuelUsed_le p
    have hrepeated : root.repeated p ≤ root.levels * call.fuel.toNat :=
      Nat.le_trans (root.repeated_le p) (Nat.mul_le_mul_left _ hused)
    rw [Nat.succ_mul]
    omega

theorem Platform.listener_counted_twice :
    let p : Platform := ⟨{}, none, {}⟩
    let call : Call := { fuel := 16 }
    ((p.root none call .patronage).session? p).isSome ∧
      (p.execute none call .patronage).1.fuelUsed = 16 ∧
      World.patronage.statistics.fuelUsed = 0 ∧
      (p.execute none call .patronage).2.statistics.fuelUsed = 19 := by
  decide +kernel

end MeteredContracts
