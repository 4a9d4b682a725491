import MeteredContracts.Proofs.Failures
import MeteredContracts.Proofs.Vetting

namespace MeteredContracts

def Acquired (function : String) : Except CallError Artifact → Prop
  | .ok a => a.Offers function
  | .error e => e.isPreExecution = true

inductive CallError.OfLoading : CallError → Prop
  | retrieval (contract : String) (source : LedgerError) :
    OfLoading (.byteRetrieval contract source)
  | validation (contract reason : String) : OfLoading (.validation contract reason)
  | compilation (reason : String) : OfLoading (.compilation reason)
  | missing (name : String) : OfLoading (.exportMissing name)
  | mismatch (name signature : String) : OfLoading (.signatureMismatch name signature)

theorem CallError.OfLoading.isPreExecution {e : CallError} (h : e.OfLoading) :
    e.isPreExecution = true := by
  cases h <;> rfl

theorem Artifact.checkEntry_eq_error {a : Artifact} {function : String} {e : CallError}
    (h : a.checkEntry function = .error e) : e.OfLoading := by
  unfold checkEntry at h
  cases he : a.module.entry function with
  | callable =>
    rw [he] at h
    cases h
  | missing =>
    rw [he] at h
    cases h
    exact .missing _
  | mismatched type =>
    rw [he] at h
    cases h
    exact .mismatch _ _

theorem Artifact.acquired_checkEntry (a : Artifact) (function : String) :
    Acquired function ((a.checkEntry function).map fun _ => a) := by
  cases hc : a.checkEntry function with
  | ok u => exact checkEntry_eq_ok.mp hc
  | error e => exact (checkEntry_eq_error hc).isPreExecution

theorem Artifact.compile_eq_error {bytes : Bytes} {e : CallError}
    (h : Artifact.compile bytes = .error e) : ∃ reason, e = .compilation reason := by
  unfold compile at h
  split at h
  · cases h
    exact ⟨_, rfl⟩
  · split at h
    · cases h
      exact ⟨_, rfl⟩
    · split at h
      · cases h
        exact ⟨_, rfl⟩
      · cases h
        exact ⟨_, rfl⟩
      · cases h

theorem Service.artifact_eq_error {s : Service} {validator : Option Validator} {id : ContractId}
    {e : CallError} (h : s.artifact validator id = .error e) : e.OfLoading := by
  unfold artifact at h
  split at h
  · cases h
    exact .retrieval _ _
  · split at h
    · cases h
      exact .validation _ _
    · obtain ⟨reason, rfl⟩ := Artifact.compile_eq_error h
      exact .compilation reason

theorem Service.acquired_acquire (s : Service) (validator : Option Validator) (id : ContractId)
    (function : String) : Acquired function (s.acquire validator id function) := by
  unfold acquire
  cases ha : s.artifact validator id with
  | error e => exact (artifact_eq_error ha).isPreExecution
  | ok a => exact a.acquired_checkEntry function

theorem World.acquired_load (w : World) (validator : Option Validator) (id : ContractId)
    (function : String) (cancel : Cancellation) :
    Acquired function ((w.load validator id function cancel).1.map fun l => l.1.artifact) := by
  suffices h : Acquired function
      (((w.load validator id function cancel).1.map Prod.fst).map Loaded.artifact) by
    rcases hl : w.load validator id function cancel with ⟨_ | _, _⟩ <;> rwa [hl] at h
  unfold load
  rw [w.lookUp_eq_peek]
  cases w.cache.peek id with
  | some a =>
    refine Stage.race_elim (P := fun r _ => Acquired function (r.map Loaded.artifact)) rfl rfl ?_
    have hentry := a.acquired_checkEntry function
    rcases ha : a.checkEntry function with _ | _ <;> rwa [ha] at hentry
  | none =>
    refine Stage.race_elim (P := fun r _ => Acquired function (r.map Loaded.artifact)) rfl rfl ?_
    have hacquired := w.service.acquired_acquire validator id function
    rw [← w.lookUp_service id, ← ((w.lookUp id).2.loadCold_eq validator id function).1] at hacquired
    rcases ha : (w.lookUp id).2.loadCold validator id function with ⟨_ | _, _⟩ <;>
      rwa [ha] at hacquired

section Except

variable {ε δ α β : Type}

theorem eq_error_of_bind {x : Except ε α} {f : α → Except ε β} {e : ε} (h : x >>= f = .error e) :
    x = .error e ∨ ∃ a, x = .ok a ∧ f a = .error e := by
  cases x with
  | error e' =>
    cases h
    exact .inl rfl
  | ok a => exact .inr ⟨a, rfl, h⟩

theorem eq_error_of_map {x : Except ε α} {f : α → β} {e : ε} (h : x.map f = .error e) :
    x = .error e := by
  cases x with
  | error e' =>
    cases h
    rfl
  | ok a => cases h

theorem eq_error_of_mapError {x : Except ε α} {f : ε → δ} {e : δ} (h : x.mapError f = .error e) :
    ∃ e', e = f e' := by
  cases x with
  | error e' =>
    cases h
    exact ⟨e', rfl⟩
  | ok a => cases h

end Except

namespace Sandbox

theorem emptyMemory_eq_error {execution : ExecutionConfig} {m : Wasm.Module} {e : CallError}
    (h : emptyMemory execution m = .error e) : ∃ reason, e = .instantiation reason := by
  unfold emptyMemory at h
  split at h
  · cases h
  · split at h
    · cases h
      exact ⟨_, rfl⟩
    · cases h

theorem prepare_eq_error {host : List HostFunction} {config : EngineConfig}
    {execution : ExecutionConfig} {id : Nat} {module : Wasm.Module} {fuel : UInt64} {w : World}
    {e : CallError} (h : prepare host config execution id module fuel w engine = .error e) :
    ∃ reason, e = .instantiation reason := by
  unfold prepare at h
  obtain h | ⟨links, -, h⟩ := eq_error_of_bind h
  · obtain ⟨e', rfl⟩ := eq_error_of_mapError h
    exact ⟨_, rfl⟩
  dsimp only at h
  split at h
  · cases h
    exact ⟨_, rfl⟩
  obtain h | ⟨memory, -, h⟩ := eq_error_of_bind h
  · exact emptyMemory_eq_error h
  obtain h | ⟨table, -, h⟩ := eq_error_of_bind h
  · obtain ⟨e', rfl⟩ := eq_error_of_mapError h
    exact ⟨_, rfl⟩
  obtain h | ⟨memory, -, h⟩ := eq_error_of_bind h
  · obtain ⟨e', rfl⟩ := eq_error_of_mapError h
    exact ⟨_, rfl⟩
  · cases h

theorem runStart_eq_error {s : Sandbox} {w w' : World} {e : CallError}
    (h : s.runStart w = (.error e, w')) : e = .instantiation backtrace := by
  unfold runStart at h
  split at h
  · cases h
  · split at h
    · cases h
    · cases h
      rfl

end Sandbox

namespace Frame

variable {p : Platform} {fr : Frame}

theorem acquired_loaded (p : Platform) (fr : Frame) :
    Acquired fr.call.function ((fr.loaded p).1.map Loaded.artifact) := by
  unfold loaded
  rw [Platform.prepare_eq]
  have hresolve := fr.call.resolve_fst fr.cancel fr.world
  rcases hr : fr.call.resolve fr.cancel fr.world with ⟨e | ⟨id, cancel⟩, w⟩
  · rw [hr] at hresolve
    unfold Stage.settle Service.contractOf at hresolve
    split at hresolve
    · cases hresolve
      rfl
    · split at hresolve
      · cases hresolve
      · cases hresolve
        rfl
  · dsimp only
    have hload := w.acquired_load p.validator id fr.call.function cancel
    rcases hl : w.load p.validator id fr.call.function cancel with ⟨_ | _, _⟩ <;> rwa [hl] at hload

theorem loaded_eq_ok {a : Loaded} {w : World} (hl : fr.loaded p = (.ok a, w)) :
    (a.artifact.module.exportedFunction? fr.call.function).isSome := by
  have hacquired := fr.acquired_loaded p
  rw [hl] at hacquired
  obtain ⟨index, type, hindex, -⟩ := hacquired
  exact Option.isSome_iff_exists.mpr ⟨index, hindex⟩

theorem loaded_eq_error {e : CallError} {w : World} (hl : fr.loaded p = (.error e, w)) :
    e.isPreExecution = true := by
  have hacquired := fr.acquired_loaded p
  rwa [hl] at hacquired

theorem session_entry {ss : Session} (hs : fr.session? p = some ss) :
    (ss.sandbox.box.module.exportedFunction? fr.call.function).isSome := by
  obtain ⟨a, w, s, s', w', hl, hf, hb, rfl⟩ := session?_eq_some hs
  have hmodule : s'.box.module = a.artifact.module := by
    rw [(started_sandbox hb).1]
    exact (fresh_sandbox hf).module
  show (s'.box.module.exportedFunction? _).isSome
  rw [hmodule]
  exact loaded_eq_ok hl

theorem run_eq_error {e : CallError} (h : (p.run fr).1.output = .error e) :
    fr.session? p = none ∧ e.isPreExecution = true ∧ fr.world.Loads (p.run fr).2 ∧
        (p.run fr).1.fuelUsed = 0 ∨
      fr.session? p = none ∧ (∃ reason, e = .instantiation reason) ∧ (p.run fr).1.fuelUsed = 0 ∨
      (fr.session? p).isSome ∧ e.isPreExecution = false ∧ ∀ reason, e ≠ .instantiation reason := by
  have hloads := fr.loads_loaded p
  have hc := p.course fr
  generalize p.run fr = r at hc h ⊢
  cases hc with
  | unloaded hl =>
    rw [hl] at hloads
    cases h
    exact .inl ⟨by simp only [session?, hl], loaded_eq_error hl, hloads, rfl⟩
  | unfit hl hf =>
    cases h
    exact .inr (.inl ⟨by simp only [session?, hl, hf], Sandbox.prepare_eq_error hf, rfl⟩)
  | unstarted hl hf hb =>
    cases h
    exact .inr (.inl ⟨by simp only [session?, hl, hf, hb], ⟨_, Sandbox.runStart_eq_error hb⟩, rfl⟩)
  | served _ _ _ hs _ hr =>
    -- the entry was there when the artifact was loaded, so it is not missing now
    rw [← hr] at h
    have hfails := Sandbox.invoke_fst_eq_error (session_box hs).2 (session_entry hs) h
    exact .inr (.inr ⟨Option.isSome_iff_exists.mpr ⟨_, hs⟩, hfails⟩)

end Frame

/-- A call that fails has had no sandbox exactly if its failure says so, or if it was the setting up
of the sandbox that failed, of which it does not. Where a failure does say so, nothing has changed
but the cache and what was seen from outside, and no fuel is used. -/
theorem Platform.tells_of_no_sandbox (p : Platform) :
    (∀ (fr : Frame) (e : CallError), (p.run fr).1.output = .error e →
      (fr.session? p = none ↔ e.isPreExecution = true ∨ ∃ reason, e = .instantiation reason)) ∧
    (∀ (fr : Frame) (e : CallError), (p.run fr).1.output = .error e → e.isPreExecution = true →
      (∃ cache journal, (p.run fr).2 = { fr.world with cache, journal }) ∧
        (p.run fr).1.fuelUsed = 0) ∧
    ∀ reason, (CallError.instantiation reason).isPreExecution = false := by
  refine ⟨fun fr e h => ?_, fun fr e h htells => ?_, fun reason => rfl⟩
  · obtain ⟨hs, htells, -⟩ | ⟨hs, hreason, -⟩ | ⟨hs, htells, hreason⟩ := Frame.run_eq_error h
    · exact iff_of_true hs (.inl htells)
    · exact iff_of_true hs (.inr hreason)
    · refine iff_of_false (fun hnone => by simp [hnone] at hs) ?_
      rintro (hyes | ⟨reason, rfl⟩)
      · rw [htells] at hyes
        cases hyes
      · exact hreason reason rfl
  · obtain ⟨-, -, hloads, hfuel⟩ | ⟨-, ⟨reason, rfl⟩, -⟩ | ⟨-, hno, -⟩ := Frame.run_eq_error h
    · exact ⟨hloads, hfuel⟩
    · cases htells
    · rw [hno] at htells
      cases htells

def Wasm.Module.stranger : Wasm.Module where
  imports := [⟨"", "", .function ⟨[], []⟩⟩]
  functions := #[⟨⟨[.i32], []⟩, [], []⟩]
  exports := [⟨"", .function, 1⟩]

set_option maxRecDepth 4000 in
theorem Platform.stranger_does_not_tell :
    let p : Platform := ⟨{}, none, {}⟩
    let fr := p.root none { fuel := 100 } (.hosting .stranger)
    fr.session? p = none ∧
      ∃ e, (p.run fr).1.output = .error e ∧ e.isPreExecution = false := by
  intro p fr
  have hrun : ((fr.session? p).isNone, (p.run fr).1.output) =
      (true, .error (.instantiation "unknown import: `::` has not been defined")) := by
    decide +kernel
  obtain ⟨hs, ho⟩ := Prod.mk.inj hrun
  exact ⟨Option.isNone_iff_eq_none.mp hs, _, ho, rfl⟩

end MeteredContracts
