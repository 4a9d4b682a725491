import MeteredContracts.Proofs.FrameRules
import MeteredContracts.Proofs.HostFailures

namespace MeteredContracts

open Wasm (Cell Machine)

namespace Failure

def Dry (f : Failure) : Prop := f = .trap .outOfFuel ∨ f = .call .fuelExhausted

def Plain (f : Failure) : Prop := ∀ e, f = .call e → e = .fuelExhausted

theorem dry_inGuest {f : Failure} : f.inGuest.Dry ↔ f.Dry := by
  cases f <;> simp [inGuest, Dry]

theorem plain_inGuest {f : Failure} : f.inGuest.Plain ↔ f.Plain := by
  cases f <;> simp [inGuest, Plain]

theorem not_dry_host (e : HostError) : ¬Dry (.host e) := by simp [Dry]

/-- A guest can be stopped so without the host having refused it anything. -/
inductive Raised : Failure → Prop
  | trap (t : Wasm.Trap) : Raised (.trap t)
  | other (text : String) : Raised (.other text)
  | missing (name : String) : Raised (.host (.missingExport name))
  | memory (reason : String) : Raised (.host (.memoryAccess reason))
  | tooLarge : Raised (.host (.invalidArgument "nested call result too large"))

theorem Raised.inGuest {f : Failure} (hf : f.Raised) : f.inGuest.Raised := by
  cases hf <;> constructor

theorem Raised.plain {f : Failure} (hf : f.Raised) : f.Plain := by
  cases hf <;> exact nofun

theorem Raised.of_memory {e : HostError}
    (h : e = .missingExport "memory" ∨ ∃ reason, e = .memoryAccess reason) : Raised (.host e) := by
  obtain rfl | ⟨reason, rfl⟩ := h
  · exact .missing _
  · exact .memory reason

theorem classify_eq_fuelExhausted {message : Wasm.Trap → String} {timeout : UInt64} {f : Failure} :
    f.classify message timeout = .fuelExhausted ↔ f.Dry := by
  unfold classify Dry
  cases f with
  | trap t => cases t <;> simp
  | host e => simp
  | call e => simp
  | other text => simp

theorem Plain.classify {f : Failure} (hf : f.Plain) (message : Wasm.Trap → String)
    (timeout : UInt64) :
    (f.classify message timeout).isPreExecution = false ∧
      ∀ reason, f.classify message timeout ≠ .instantiation reason := by
  unfold Failure.classify
  cases f with
  | trap t => cases t <;> simp [CallError.isPreExecution]
  | host e => simp [CallError.isPreExecution]
  | call e => simp [hf e rfl, CallError.isPreExecution]
  | other text => simp [CallError.isPreExecution]

theorem Plain.eq_host_of_classify {f : Failure} (hf : f.Plain) {message : Wasm.Trap → String}
    {timeout : UInt64} {e : HostError} (h : f.classify message timeout = .host e) :
    f = .host e := by
  unfold Failure.classify at h
  cases f with
  | trap t => cases t <;> cases h
  | host e' => exact congrArg Failure.host (CallError.host.inj h)
  | call e' =>
    obtain rfl := hf e' rfl
    cases h
  | other text => cases h

theorem inGuest_eq_host {f : Failure} {e : HostError} : f.inGuest = .host e ↔ f = .host e := by
  cases f <;> simp [inGuest]

end Failure

namespace Turn

def RunsDry (b : Box) (delegate : Option Delegate) : Turn → Prop
  | .step s deliveries result w => (pause b s).2 = .trapped .outOfFuel ∨
      ∃ h, hostCall? b delegate (.step s deliveries result w) = some h ∧ h.Overdraws
  | .ended .. => False

variable {b : Box} {delegate : Option Delegate}

theorem allocator_eq_error {bytes : Bytes} {f : Failure} (h : allocator b bytes = .error f) :
    f.Raised ∧ ¬f.Dry := by
  unfold allocator at h
  split at h
  · cases h
    exact ⟨.tooLarge, Failure.not_dry_host _⟩
  · split at h
    · cases h
      exact ⟨.missing _, Failure.not_dry_host _⟩
    · split at h
      · split at h
        · cases h
          exact ⟨.memory _, Failure.not_dry_host _⟩
        · cases h
      · cases h
        exact ⟨.other _, by simp [Failure.Dry]⟩

theorem answer_eq_ended {m : Machine} {function : Nat} {args : List Cell}
    {deliveries : List Delivery} {result : Option Bytes} {w : World} {f : Failure} {scene : Scene}
    (h : answer b delegate m function args deliveries result w = .ended (.error f) scene)
    {g : HostFunction} (hg : b.links[function]? = some g) {r : Reply}
    (hr : (HostCall.run ⟨g, ⟨b.id, b.module.exportsMemory && !m.callers.isEmpty, delegate⟩, args,
      ⟨m.state, result, w⟩⟩).1 = .ok r) : f.Raised ∧ ¬f.Dry := by
  unfold HostCall.run at hr
  unfold answer at h
  simp only [hg] at h
  split at h
  next he =>
    rw [he] at hr
    cases hr
  next => cases h
  next bytes _ _ =>
    split at h
    next ha =>
      cases h
      rw [Failure.dry_inGuest]
      exact ⟨(allocator_eq_error ha).1.inGuest, (allocator_eq_error ha).2⟩
    next => cases h

theorem advance_of_refused {t : Turn} {h : HostCall} (ht : hostCall? b delegate t = some h)
    {f : Failure} (hr : h.run.1 = .error f) :
    ∃ f' scene, advance b delegate t = .ended (.error f') scene ∧ (f' = f ∨ f' = f.inGuest) := by
  cases t with
  | ended how scene => cases ht
  | step s deliveries result w =>
    rw [advance_step]
    change called? b delegate _ (pause b s).2 result _ = _ at ht
    unfold react
    cases hp : (pause b s).2 with
    | trapped | finished =>
      rw [hp] at ht
      cases ht
    | call function args =>
      rw [hp] at ht
      obtain ⟨g, hg, rfl⟩ := Option.map_eq_some_iff.mp ht
      unfold HostCall.run at hr
      unfold answer
      simp only [hg]
      split
      next e scene he =>
        rw [he] at hr
        cases hr
        refine ⟨_, scene, rfl, ?_⟩
        -- only a function that no guest has called fails as it is
        split
        · exact .inl rfl
        · exact .inr rfl
      next he =>
        rw [he] at hr
        cases hr
      next he =>
        rw [he] at hr
        cases hr

theorem advance_of_runsDry {t : Turn} (ht : RunsDry b delegate t) :
    ∃ f scene, advance b delegate t = .ended (.error f) scene ∧ f.Dry := by
  cases t with
  | ended how scene => cases ht
  | step s deliveries result w =>
    obtain hp | ⟨h, hh, ho⟩ := ht
    · rw [advance_step]
      unfold react
      rw [hp]
      exact ⟨_, _, rfl, .inl rfl⟩
    · have hr : h.run.1 = .error (.call .fuelExhausted) := by rw [h.run_of_overdraws ho]
      obtain ⟨f, scene, hended, rfl | rfl⟩ := advance_of_refused hh hr
      · exact ⟨_, scene, hended, .inr rfl⟩
      · exact ⟨_, scene, hended, .inr rfl⟩

inductive Stops (b : Box) (delegate : Option Delegate) (t : Turn) (f : Failure) : Prop
  | raised : f.Raised → (f.Dry → RunsDry b delegate t) → Stops b delegate t f
  | refused {h : HostCall} {e : Failure} : hostCall? b delegate t = some h →
      h.run.1 = .error e → (f = e ∨ f = e.inGuest) → Stops b delegate t f

theorem advance_of_unrefused {t : Turn} (ht : ∀ h, hostCall? b delegate t = some h →
    ∃ r, h.run.1 = .ok r) {f : Failure} {scene : Scene}
    (hend : advance b delegate t = .ended (.error f) scene) :
    t = .ended (.error f) scene ∨ f.Raised ∧ (f.Dry → RunsDry b delegate t) := by
  cases t with
  | ended how scene' => exact .inl hend
  | step s deliveries result w =>
    right
    change ∀ h, called? b delegate _ (pause b s).2 result _ = some h → _ at ht
    rw [advance_step] at hend
    unfold react at hend
    cases hp : (pause b s).2 with
    | trapped t =>
      rw [hp] at hend
      cases hend
      refine ⟨.trap t, ?_⟩
      rintro (hdry | hdry)
      · cases hdry
        exact .inl hp
      · cases hdry
    | call function args =>
      rw [hp] at hend ht
      cases hg : b.links[function]? with
      | none =>
        unfold answer at hend
        simp only [hg] at hend
        cases hend
        exact ⟨.other _, by simp [Failure.Dry]⟩
      | some g =>
        obtain ⟨r, hr⟩ := ht _ (by rw [called?, hg, Option.map_some])
        obtain ⟨hraised, hdry⟩ := answer_eq_ended hend hg hr
        exact ⟨hraised, fun hd => absurd hd hdry⟩
    | finished results =>
      rw [hp] at hend
      cases deliveries with
      | nil => cases hend
      | cons d deliveries =>
        unfold deliver at hend
        dsimp only at hend
        split at hend
        next hw =>
          cases hend
          exact ⟨.of_memory (Scene.write_eq_error hw).2,
            fun hdry => absurd hdry (Failure.not_dry_host _)⟩
        · cases hend

theorem advance_eq_ended {t : Turn} {f : Failure} {scene : Scene}
    (hend : advance b delegate t = .ended (.error f) scene) :
    t = .ended (.error f) scene ∨ Stops b delegate t f := by
  by_cases ht : ∃ h e, hostCall? b delegate t = some h ∧ h.run.1 = .error e
  · obtain ⟨h, e, hh, he⟩ := ht
    obtain ⟨f', scene', hended, hf⟩ := advance_of_refused hh he
    rw [hend] at hended
    cases hended
    exact .inr (.refused hh he hf)
  · have hok : ∀ h, hostCall? b delegate t = some h → ∃ r, h.run.1 = .ok r := by
      intro h hh
      cases hr : h.run.1 with
      | error e => exact absurd ⟨h, e, hh, hr⟩ ht
      | ok r => exact ⟨r, rfl⟩
    obtain hend | ⟨hraised, hdry⟩ := advance_of_unrefused hok hend
    · exact .inl hend
    · exact .inr (.raised hraised hdry)

theorem Stops.dry (hl : ∀ f ∈ b.links, f ∈ HostFunction.standard) {t : Turn} {f : Failure}
    (ht : Stops b delegate t f) : f.Plain ∧ (f.Dry → RunsDry b delegate t) := by
  -- the host refuses for want of fuel only a nested call, and all else that it refuses it calls a
  -- fault of its own
  cases ht with
  | raised hraised hdry => exact ⟨hraised.plain, hdry⟩
  | @refused h e hh he hf =>
    have hruns : h.Overdraws → RunsDry b delegate t := by
      intro ho
      cases t with
      | ended how scene => cases hh
      | step s deliveries result w => exact .inr ⟨h, hh, ho⟩
    have hfails : e.Plain ∧ (e.Dry → h.Overdraws) := by
      obtain ⟨⟨e', rfl, -⟩, -⟩ | ⟨rfl, ho⟩ :=
        HostCall.run_fst_eq_error (hl _ (hostCall?_caller b delegate hh).2.2) he
      · exact ⟨nofun, fun hdry => absurd hdry (Failure.not_dry_host _)⟩
      · exact ⟨fun _ h => (Failure.call.inj h).symm, fun _ => ho⟩
    obtain rfl | rfl := hf
    · exact ⟨hfails.1, fun hdry => hruns (hfails.2 hdry)⟩
    · rw [Failure.plain_inGuest, Failure.dry_inGuest]
      exact ⟨hfails.1, fun hdry => hruns (hfails.2 hdry)⟩

theorem iterate_ended (how : Except Failure (List Cell)) (scene : Scene) (n : Nat) :
    (advance b delegate)^[n] (.ended how scene) = .ended how scene :=
  Function.iterate_fixed rfl n

theorem iterate_of_ended {t : Turn} {k n : Nat} (hk : k < n) {how : Except Failure (List Cell)}
    {scene : Scene}
    (hend : advance b delegate ((advance b delegate)^[k] t) = .ended how scene) :
    (advance b delegate)^[n] t = .ended how scene := by
  obtain ⟨rest, rfl⟩ := Nat.exists_eq_add_of_lt hk
  rw [show k + rest + 1 = rest + (k + 1) by omega, Function.iterate_add_apply,
    Function.iterate_succ_apply', hend, iterate_ended]

theorem iterate_eq_ended {t : Turn} {n : Nat} {f : Failure} {scene : Scene}
    (hend : (advance b delegate)^[n] t = .ended (.error f) scene) :
    t = .ended (.error f) scene ∨ ∃ k < n, Stops b delegate ((advance b delegate)^[k] t) f := by
  -- a run has ended before its last turn, or ends in it
  induction n with
  | zero => exact .inl hend
  | succ n ih =>
    rw [Function.iterate_succ_apply'] at hend
    obtain hend | hstops := advance_eq_ended hend
    · obtain hend | ⟨k, hk, hstops⟩ := ih hend
      · exact .inl hend
      · exact .inr ⟨k, Nat.lt_succ_of_lt hk, hstops⟩
    · exact .inr ⟨n, Nat.lt_succ_self n, hstops⟩

end Turn

namespace Sandbox

variable {s : Sandbox} {function : Nat} {args : List Cell} {w : World}

def RunsDry (s : Sandbox) (function : Nat) (args : List Cell) (w : World) : Prop :=
  ∃ n < s.box.ceiling, Turn.RunsDry s.box s.delegate
    ((Turn.advance s.box s.delegate)^[n] (s.firstTurn function args w))

theorem run_stops {f : Failure} (h : (s.run function args w).1 = .error f) :
    f = .trap .interrupted ∨ ∃ k < s.box.ceiling, Turn.Stops s.box s.delegate
      ((Turn.advance s.box s.delegate)^[k] (s.firstTurn function args w)) f := by
  obtain ⟨n, hn, hs⟩ := s.run_eq_after function args w
  rw [hs] at h
  rw [← hn]
  change ((Turn.advance s.box s.delegate)^[n] (s.firstTurn function args w)).stop.1 = _ at h
  cases ht : (Turn.advance s.box s.delegate)^[n] (s.firstTurn function args w) with
  | step s' deliveries result w' =>
    rw [ht] at h
    cases h
    exact .inl rfl
  | ended how scene =>
    rw [ht] at h
    obtain rfl : how = .error f := h
    obtain hfirst | hstops := Turn.iterate_eq_ended ht
    · cases hfirst
    · exact .inr hstops

theorem run_fst_eq_error (hl : ∀ f ∈ s.box.links, f ∈ HostFunction.standard) {f : Failure}
    (h : (s.run function args w).1 = .error f) : f.Plain ∧ (f.Dry → s.RunsDry function args w) := by
  obtain rfl | ⟨k, hk, hstops⟩ := run_stops h
  · exact ⟨nofun, by simp [Failure.Dry]⟩
  · exact ⟨(hstops.dry hl).1, fun hdry => ⟨k, hk, (hstops.dry hl).2 hdry⟩⟩

theorem run_raises_or_refused {f : Failure} (h : (s.run function args w).1 = .error f) :
    f.Raised ∨ ∃ h e, s.Calls function args w h ∧ h.run.1 = .error e ∧ (f = e ∨ f = e.inGuest) := by
  obtain rfl | ⟨k, hk, hstops⟩ := run_stops h
  · exact .inl (.trap _)
  · cases hstops with
    | raised hraised => exact .inl hraised
    | refused hh he hf => exact .inr ⟨_, _, ⟨k, hk, hh⟩, he, hf⟩

theorem run_of_ended {k : Nat} (hk : k < s.box.ceiling) {f : Failure} {scene : Scene}
    (hend : Turn.advance s.box s.delegate ((Turn.advance s.box s.delegate)^[k]
      (s.firstTurn function args w)) = .ended (.error f) scene) :
    (s.run function args w).1 = .error f := by
  obtain ⟨n, hn, hs⟩ := s.run_eq_after function args w
  rw [← hn] at hk
  rw [hs, Turn.iterate_of_ended hk hend]
  rfl

theorem run_of_runsDry (h : s.RunsDry function args w) :
    ∃ f, (s.run function args w).1 = .error f ∧ f.Dry := by
  obtain ⟨k, hk, hruns⟩ := h
  obtain ⟨f, scene, hend, hdry⟩ := Turn.advance_of_runsDry hruns
  exact ⟨f, run_of_ended hk hend, hdry⟩

theorem run_of_refused {h : HostCall} (hh : s.Calls function args w h) {f : Failure}
    (hr : h.run.1 = .error f) :
    ∃ f', (s.run function args w).1 = .error f' ∧ (f' = f ∨ f' = f.inGuest) := by
  obtain ⟨k, hk, ht⟩ := hh
  obtain ⟨f', scene, hend, hf⟩ := Turn.advance_of_refused ht hr
  exact ⟨f', run_of_ended hk hend, hf⟩

theorem runsDry_of_error (hl : ∀ f ∈ s.box.links, f ∈ HostFunction.standard) {f : Failure}
    (hr : (s.run function args w).1 = .error f) : s.RunsDry function args w ↔ f.Dry := by
  constructor
  · intro h
    obtain ⟨f', hr', hdry⟩ := run_of_runsDry h
    rw [hr] at hr'
    cases hr'
    exact hdry
  · exact (run_fst_eq_error hl hr).2

theorem not_runsDry_of_ok {results : List Cell} (hr : (s.run function args w).1 = .ok results) :
    ¬s.RunsDry function args w := by
  intro h
  obtain ⟨f, hr', -⟩ := run_of_runsDry h
  rw [hr] at hr'
  cases hr'

variable {name : String} {payload : Bytes}

theorem placingError_eq_fuelExhausted {f : Failure} :
    s.placingError f = .fuelExhausted ↔ f.Dry := by
  have hclassify : s.classify f = .fuelExhausted ↔ f.Dry := Failure.classify_eq_fuelExhausted
  rw [← hclassify]
  unfold placingError
  cases s.classify f <;> simp

theorem placingError_cases (s : Sandbox) (f : Failure) :
    s.placingError f = .fuelExhausted ∨ (∃ ms, s.placingError f = .timeout ms) ∨
      ∃ reason, s.placingError f = .memoryWrite reason := by
  unfold placingError
  cases s.classify f <;> simp

theorem placePayload_fst_eq_error {e : CallError} (h : (s.placePayload payload w).1 = .error e) :
    e = .fuelExhausted ∨ (∃ ms, e = .timeout ms) ∨ ∃ reason, e = .memoryWrite reason := by
  cases ha : s.allocator? payload with
  | none =>
    obtain ⟨reason, he⟩ := s.placePayload_of_none payload w ha
    rw [he] at h
    cases h
    exact .inr (.inr ⟨reason, rfl⟩)
  | some index =>
    obtain ⟨f, -, he⟩ | ⟨results, -, reason, he⟩ | ⟨results, -, place, bytes, he⟩ :=
      s.placePayload_of_some payload w ha
    · rw [he] at h
      cases h
      exact s.placingError_cases f
    · rw [he] at h
      cases h
      exact .inr (.inr ⟨reason, rfl⟩)
    · rw [he] at h
      cases h

theorem invoke_eq_error {e : CallError} (h : (s.invoke name payload w).1 = .error e) :
    (s.placePayload payload w).1 = .error e ∨
      ∃ place s' w', s.placePayload payload w = (.ok place, s', w') ∧
        (s'.box.module.exportedFunction? name = none ∧ e = .exportMissing name ∨
          e = .trap "wrong arguments" none ∨
          ∃ index f, s'.entry? name = some index ∧
            (s'.run index [.ofNat place] w').1 = .error f ∧ e = s.classify f) := by
  rw [invoke_eq] at h
  rcases hp : s.placePayload payload w with ⟨e' | place, s', w'⟩
  · rw [hp] at h
    cases h
    exact .inl rfl
  · rw [hp] at h
    refine .inr ⟨place, s', w', rfl, ?_⟩
    dsimp only at h
    cases hentry : s'.entry? name with
    | none =>
      rw [hentry] at h
      dsimp only at h
      split at h
      next hnone =>
        cases h
        exact .inl ⟨Option.isNone_iff_eq_none.mp hnone, rfl⟩
      · cases h
        exact .inr (.inl rfl)
    | some index =>
      rw [hentry] at h
      dsimp only at h
      have hrun := (s'.run_box index [.ofNat place] w').1
      rcases hr : s'.run index [.ofNat place] w' with ⟨f | results, s'', w''⟩
      · rw [hr] at h hrun
        cases h
        refine .inr (.inr ⟨index, f, rfl, congrArg Prod.fst hr, ?_⟩)
        unfold classify
        rw [show s''.box = s.box from hrun.trans (placed_box hp).1]
      · rw [hr] at h
        cases h

inductive RunsDryInvoked (s : Sandbox) (function : String) (payload : Bytes) (w : World) : Prop
  | placing {index : Nat} : s.allocator? payload = some index →
      s.RunsDry index [.ofNat payload.length] w → RunsDryInvoked s function payload w
  | serving {place index : Nat} {s' : Sandbox} {w' : World} :
      s.placePayload payload w = (.ok place, s', w') → s'.entry? function = some index →
      s'.RunsDry index [.ofNat place] w' → RunsDryInvoked s function payload w

section Invocations

variable (hl : ∀ f ∈ s.box.links, f ∈ HostFunction.standard)

include hl

theorem placePayload_eq_fuelExhausted (payload : Bytes) (w : World) :
    (s.placePayload payload w).1 = .error .fuelExhausted ↔
      ∃ index, s.allocator? payload = some index ∧ s.RunsDry index [.ofNat payload.length] w := by
  cases ha : s.allocator? payload with
  | none =>
    obtain ⟨reason, he⟩ := s.placePayload_of_none payload w ha
    simp [he]
  | some index =>
    obtain ⟨f, hr, he⟩ | ⟨results, hr, reason, he⟩ | ⟨results, hr, place, bytes, he⟩ :=
      s.placePayload_of_some payload w ha
    · simp [he, placingError_eq_fuelExhausted, runsDry_of_error hl hr]
    · simp [he, not_runsDry_of_ok hr]
    · simp [he, not_runsDry_of_ok hr]

theorem runsDryInvoked_of_unplaced {e : CallError} {s' : Sandbox} {w' : World}
    (hp : s.placePayload payload w = (.error e, s', w')) :
    s.RunsDryInvoked name payload w ↔ e = .fuelExhausted := by
  have hplace := placePayload_eq_fuelExhausted hl payload w
  rw [hp, Except.error.injEq] at hplace
  rw [hplace]
  constructor
  · intro h
    cases h with
    | placing ha hruns => exact ⟨_, ha, hruns⟩
    | serving hp' =>
      rw [hp] at hp'
      cases hp'
  · rintro ⟨index, ha, hruns⟩
    exact .placing ha hruns

theorem runsDryInvoked_of_placed {place : Nat} {s' : Sandbox} {w' : World}
    (hp : s.placePayload payload w = (.ok place, s', w')) :
    s.RunsDryInvoked name payload w ↔
      ∃ index, s'.entry? name = some index ∧ s'.RunsDry index [.ofNat place] w' := by
  have hplace := placePayload_eq_fuelExhausted hl payload w
  rw [hp] at hplace
  constructor
  · intro h
    cases h with
    | placing ha hruns =>
      have hnone := hplace.mpr ⟨_, ha, hruns⟩
      cases hnone
    | serving hp' he hruns =>
      rw [hp] at hp'
      cases hp'
      exact ⟨_, he, hruns⟩
  · rintro ⟨index, he, hruns⟩
    exact .serving hp he hruns

theorem invoke_eq_fuelExhausted (name : String) (payload : Bytes) (w : World) :
    (s.invoke name payload w).1 = .error .fuelExhausted ↔ s.RunsDryInvoked name payload w := by
  rw [invoke_eq]
  rcases hp : s.placePayload payload w with ⟨e | place, s', w'⟩
  · rw [runsDryInvoked_of_unplaced hl hp]
    simp
  · have hl' : ∀ f ∈ s'.box.links, f ∈ HostFunction.standard := by rwa [(placed_box hp).1]
    rw [runsDryInvoked_of_placed hl hp]
    dsimp only
    cases he : s'.entry? name with
    | none =>
      dsimp only
      split <;> simp
    | some index =>
      dsimp only
      rcases hr : s'.run index [.ofNat place] w' with ⟨f | results, s'', w''⟩
      · have hclassify : s''.classify f = .fuelExhausted ↔ f.Dry :=
          Failure.classify_eq_fuelExhausted
        simp [hclassify, runsDry_of_error hl' (congrArg Prod.fst hr)]
      · simp [not_runsDry_of_ok (congrArg Prod.fst hr)]

theorem invoke_fst_eq_error {e : CallError} (hentry : (s.box.module.exportedFunction? name).isSome)
    (h : (s.invoke name payload w).1 = .error e) :
    e.isPreExecution = false ∧ ∀ reason, e ≠ .instantiation reason := by
  obtain hp | ⟨place, s', w', hp, hrest⟩ := invoke_eq_error h
  · obtain rfl | ⟨ms, rfl⟩ | ⟨reason, rfl⟩ := placePayload_fst_eq_error hp
    · simp [CallError.isPreExecution]
    · simp [CallError.isPreExecution]
    · simp [CallError.isPreExecution]
  · have hbox := (placed_box hp).1
    obtain ⟨hnone, -⟩ | rfl | ⟨index, f, -, hr, rfl⟩ := hrest
    · rw [hbox] at hnone
      rw [hnone] at hentry
      cases hentry
    · simp [CallError.isPreExecution]
    · have hl' : ∀ f ∈ s'.box.links, f ∈ HostFunction.standard := by rwa [hbox]
      exact (run_fst_eq_error hl' hr).1.classify _ _

theorem invoke_eq_host {e : HostError} (h : (s.invoke name payload w).1 = .error (.host e)) :
    Failure.Raised (.host e) ∨ ∃ h, s.CallsInvoked name payload w h ∧
      h.run.1 = .error (.host e) := by
  obtain hp | ⟨place, s', w', hp, ⟨-, he⟩ | he | ⟨index, f, hentry, hr, he⟩⟩ := invoke_eq_error h
  · obtain he | ⟨ms, he⟩ | ⟨reason, he⟩ := placePayload_fst_eq_error hp
    · cases he
    · cases he
    · cases he
  · cases he
  · cases he
  · have hl' : ∀ f ∈ s'.box.links, f ∈ HostFunction.standard := by rwa [(placed_box hp).1]
    obtain rfl : f = .host e := (run_fst_eq_error hl' hr).1.eq_host_of_classify he.symm
    obtain hraised | ⟨h, f, hh, hf, rfl | hguest⟩ := run_raises_or_refused hr
    · exact .inl hraised
    · exact .inr ⟨h, .serving hp hentry hh, hf⟩
    · rw [Failure.inGuest_eq_host.mp hguest.symm] at hf
      exact .inr ⟨h, .serving hp hentry hh, hf⟩

end Invocations

theorem invoke_of_refused {h : HostCall} (hh : s.CallsInvoked name payload w h) {error : HostError}
    (hr : h.run.1 = .error (.host error)) :
    (s.invoke name payload w).1 = .error (.host error) ∨
      ∃ reason, (s.invoke name payload w).1 = .error (.memoryWrite reason) := by
  rw [invoke_eq]
  cases hh with
  | @placing index ha hh =>
    obtain ⟨f, hrun, hf⟩ := run_of_refused hh hr
    obtain rfl : f = .host error := by rcases hf with rfl | rfl <;> rfl
    right
    obtain ⟨f', hrun', he⟩ | ⟨results, hrun', -⟩ | ⟨results, hrun', -⟩ :=
      s.placePayload_of_some payload w ha
    · rw [hrun] at hrun'
      cases hrun'
      rw [he]
      exact ⟨_, rfl⟩
    · rw [hrun] at hrun'
      cases hrun'
    · rw [hrun] at hrun'
      cases hrun'
  | @serving place index s' w' hp he hh =>
    obtain ⟨f, hrun, hf⟩ := run_of_refused hh hr
    obtain rfl : f = .host error := by rcases hf with rfl | rfl <;> rfl
    left
    rw [hp]
    dsimp only
    rw [he]
    dsimp only
    rcases hs : s'.run index [.ofNat place] w' with ⟨f | results, s'', w''⟩
    · rw [hs] at hrun
      cases hrun
      rfl
    · rw [hs] at hrun
      cases hrun

end Sandbox

end MeteredContracts
