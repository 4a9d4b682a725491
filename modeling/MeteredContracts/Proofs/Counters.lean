import MeteredContracts.Proofs.ServedFrames

namespace MeteredContracts

namespace Frame

theorem foldl_recorded_calls (p : Platform) (l : List Frame) (s : Statistics) :
    (l.foldl (recorded p) s).calls = s.calls + .ofNat l.length := by
  induction l generalizing s with
  | nil => exact (UInt64.add_zero s.calls).symm
  | cons fr l ih =>
    rw [List.foldl_cons, ih, List.length_cons, UInt64.ofNat_add, UInt64.add_comm (.ofNat l.length),
      ← UInt64.add_assoc]
    rfl

theorem recorded_cacheHits (p : Platform) (s : Statistics) (fr : Frame) :
    (recorded p s fr).cacheHits = s.cacheHits + .ofNat (if fr.isCached then 1 else 0) := by
  unfold recorded Statistics.record
  dsimp only
  split
  · rfl
  · exact (UInt64.add_zero s.cacheHits).symm

theorem foldl_recorded_cacheHits (p : Platform) (l : List Frame) (s : Statistics) :
    (l.foldl (recorded p) s).cacheHits = s.cacheHits + .ofNat (l.countP (·.isCached)) := by
  induction l generalizing s with
  | nil => exact (UInt64.add_zero s.cacheHits).symm
  | cons fr l ih =>
    rw [List.foldl_cons, ih, recorded_cacheHits, List.countP_cons, UInt64.ofNat_add,
      UInt64.add_comm (.ofNat (l.countP _)), UInt64.add_assoc]

end Frame

/-- The calls that are made one after the other since the counters were last set back, and the world
that they lead to. Between two of them anything may happen but to the counters, and no name is given
twice. -/
inductive Platform.SinceReset (p : Platform) : List Frame → World → Prop
  | start (service : Service) (cache : ArtifactCache) (clock : Clock) :
      SinceReset p [] { service, cache, clock }
  | call {roots : List Frame} {w : World} (cancel : Cancellation) (call : Call) :
      SinceReset p roots w →
      SinceReset p (roots ++ [p.root cancel call w]) (p.execute cancel call w).2
  | reset {roots : List Frame} {w : World} :
      SinceReset p roots w → SinceReset p [] { w with statistics := {} }
  | between {roots : List Frame} {u v : World} :
      SinceReset p roots u → v.statistics = u.statistics → u.nextSandbox ≤ v.nextSandbox →
      SinceReset p roots v

theorem Platform.SinceReset.recounts {p : Platform} {roots : List Frame} {w : World}
    (h : p.SinceReset roots w) :
    ∃ u : World, u.statistics = {} ∧ u.Recounts p (roots.flatMap (·.served p)) w := by
  induction h with
  | start service cache clock => exact ⟨_, rfl, .of_eq rfl (Nat.le_refl _)⟩
  | @call roots w cancel call _ ih =>
    obtain ⟨u, hu, hcounts⟩ := ih
    have hroot := (p.root cancel call w).run_recounts p
    refine ⟨u, hu, ?_⟩
    rw [List.flatMap_append, List.flatMap_singleton, execute_eq_run]
    exact hcounts.trans hroot
  | reset => exact ⟨_, rfl, .of_eq rfl (Nat.le_refl _)⟩
  | between _ hs hn ih =>
    obtain ⟨u, hu, hcounts⟩ := ih
    have hbetween := hcounts.trans (.of_eq hs hn)
    rw [List.append_nil] at hbetween
    exact ⟨u, hu, hbetween⟩

/-- Since the last reset, the counters have counted every frame once that has been served, in any of
the trees of calls, and a cache hit for each of these whose module was in the cache. A frame that
fails before it is served leaves them as they are. -/
theorem Platform.SinceReset.counters_exact {p : Platform} {roots : List Frame} {w : World}
    (h : p.SinceReset roots w) :
    let counted := roots.flatMap (·.served p)
    counted.Nodup ∧
      (∀ fr, fr ∈ counted ↔ (∃ root ∈ roots, Relation.ReflTransGen (Frame.Nests p) root fr) ∧
        (fr.session? p).isSome) ∧
      w.statistics.calls = .ofNat counted.length ∧
      w.statistics.cacheHits = .ofNat (counted.countP (·.isCached)) ∧
      (counted.length < UInt64.size → w.statistics.cacheHits ≤ w.statistics.calls) ∧
      ∀ fr : Frame, fr.session? p = none → (p.run fr).2.statistics = fr.world.statistics := by
  intro counted
  obtain ⟨u, hu, hcounts⟩ := h.recounts
  have hcalls : w.statistics.calls = .ofNat counted.length := by
    rw [hcounts.statistics, Frame.foldl_recorded_calls, hu]
    exact UInt64.zero_add _
  have hhits : w.statistics.cacheHits = .ofNat (counted.countP (·.isCached)) := by
    rw [hcounts.statistics, Frame.foldl_recorded_cacheHits, hu]
    exact UInt64.zero_add _
  refine ⟨hcounts.nodup, fun fr => ?_, hcalls, hhits, fun hsize => ?_, fun fr hs => ?_⟩
  · simp only [counted, List.mem_flatMap, Frame.mem_served]
    constructor
    · rintro ⟨root, hroot, ht, hs⟩
      exact ⟨⟨root, hroot, ht⟩, hs⟩
    · rintro ⟨⟨root, hroot, ht⟩, hs⟩
      exact ⟨root, hroot, ht, hs⟩
  · have hle : counted.countP (·.isCached) ≤ counted.length := List.countP_le_length
    rw [hcalls, hhits, UInt64.le_iff_toNat_le,
      UInt64.toNat_ofNat_of_lt' (Nat.lt_of_le_of_lt hle hsize), UInt64.toNat_ofNat_of_lt' hsize]
    exact hle
  · exact (Frame.run_recounts_of_unserved hs).statistics

theorem Platform.SinceReset.counters_exact_for_a_patron :
    let p : Platform := ⟨{}, none, {}⟩
    ∃ roots w, p.SinceReset roots w ∧ roots.length = 2 ∧
      w.statistics.calls = 2 ∧ w.statistics.cacheHits = 2 ∧
      UInt64.ofNat (roots.flatMap (·.served p)).length = 2 := by
  intro p
  have hstart : p.SinceReset [] .patronage := .start _ _ _
  have hlistened := hstart.call none { contract := .second, fuel := 100 }
  have hnobody := hlistened.reset.call none { contract := ⟨2 :: List.replicate 32 0, rfl⟩ }
  have hpatron := hnobody.call none { fuel := 100 }
  obtain ⟨-, -, hcalls, -⟩ := hpatron.counters_exact
  refine ⟨_, _, hpatron, rfl, ?_⟩
  rw [← hcalls]
  decide +kernel

end MeteredContracts
