import MeteredContracts.Proofs.PreExecution
import MeteredContracts.Proofs.UnpaidStarts

namespace MeteredContracts

def Cancellation.stage? (cancel : Cancellation) (polls : List Stage) : Option Stage :=
  cancel.bind fun n => polls[n]?

def Cancellation.after (cancel : Cancellation) (polls : Nat) : Cancellation :=
  cancel.map (· - polls)

namespace Cancellation

theorem stage?_some_eq_none {n : Nat} {polls : List Stage} :
    stage? (some n) polls = none ↔ polls.length ≤ n := List.getElem?_eq_none_iff

theorem stage?_append_eq_none {cancel : Cancellation} {polls later : List Stage} :
    cancel.stage? (polls ++ later) = none ↔
      cancel.stage? polls = none ∧ (cancel.after polls.length).stage? later = none := by
  cases cancel with
  | none => exact iff_of_true rfl ⟨rfl, rfl⟩
  | some n =>
    show _ ↔ _ ∧ stage? (some (n - polls.length)) later = none
    rw [stage?_some_eq_none, stage?_some_eq_none, stage?_some_eq_none, List.length_append]
    omega

theorem after_add (cancel : Cancellation) (polls later : Nat) :
    (cancel.after polls).after later = cancel.after (polls + later) := by
  cases cancel with
  | none => rfl
  | some n => exact congrArg some (Nat.sub_sub n polls later)

end Cancellation

abbrev Polling (α : Type) := Cancellation → Except CallError (α × Cancellation) × World

namespace Polling

variable {α β : Type}

def andThen (first : Polling α) (next : α → World → Polling β) : Polling β := fun cancel =>
  match first cancel with
  | (.error e, w) => (.error e, w)
  | (.ok (a, cancel), w) => next a w cancel

/-- The work is begun in `w`, makes these polls, and comes to `r` and `v`. A cancellation that is
ready at one of the polls ends it with nothing changed but the journal; any other makes no
difference. -/
structure AllOrNothing (work : Polling α) (w : World) (polls : List Stage)
    (r : Except CallError α) (v : World) : Prop where
  cancelled {n : Nat} {stage : Stage} : polls[n]? = some stage →
    ∃ journal, work (some n) = (.error (.cancelled stage), { w with journal })
  finished {cancel : Cancellation} : cancel.stage? polls = none →
    work cancel = (r.map fun a => (a, cancel.after polls.length), v)

section AndThen

variable {first : Polling α} {next : α → World → Polling β} {w v : World}
  {polls later : List Stage}

theorem AllOrNothing.andThen_of_error {e : CallError}
    (h : first.AllOrNothing w polls (.error e) v) :
    (first.andThen next).AllOrNothing w polls (.error e) v where
  cancelled hn := by
    obtain ⟨journal, hj⟩ := h.cancelled hn
    refine ⟨journal, ?_⟩
    rw [andThen, hj]
  finished hcancel := by
    rw [andThen, h.finished hcancel]
    rfl

theorem AllOrNothing.andThen_of_ok {a : α} {journal : Array Event} {r : Except CallError β}
    (h : first.AllOrNothing w polls (.ok a) { w with journal })
    (h' : (next a { w with journal }).AllOrNothing { w with journal } later r v) :
    (first.andThen next).AllOrNothing w (polls ++ later) r v where
  cancelled {n stage} hn := by
    obtain hlt | hle := Nat.lt_or_ge n polls.length
    · rw [List.getElem?_append_left hlt] at hn
      obtain ⟨journal, hj⟩ := h.cancelled hn
      refine ⟨journal, ?_⟩
      rw [andThen, hj]
    · -- the cancellation is handed on with as many polls less as the first work has made
      rw [List.getElem?_append_right hle] at hn
      obtain ⟨journal, hj⟩ := h'.cancelled hn
      refine ⟨journal, ?_⟩
      rw [andThen, h.finished (Cancellation.stage?_some_eq_none.mpr hle)]
      exact hj
  finished {cancel} hcancel := by
    obtain ⟨hfirst, hlater⟩ := Cancellation.stage?_append_eq_none.mp hcancel
    rw [andThen, h.finished hfirst]
    refine (h'.finished hlater).trans ?_
    rw [List.length_append, Cancellation.after_add]

end AndThen

theorem allOrNothing_race (stage : Stage) {rounds : Nat} (hrounds : 0 < rounds) {w begun : World}
    (hbegun : 1 < rounds → ∃ journal, begun = { w with journal })
    (work : World → Except CallError α × World) :
    AllOrNothing (fun cancel => stage.race cancel rounds w begun work) w
      (List.replicate rounds stage) (work w).1 (work w).2 where
  cancelled {n stage'} hn := by
    rw [List.getElem?_replicate, Option.ite_none_right_eq_some] at hn
    obtain ⟨hlt, hstage⟩ := hn
    cases hstage
    cases n with
    | zero => exact ⟨w.journal, rfl⟩
    | succ n =>
      obtain ⟨journal, rfl⟩ := hbegun (by omega)
      refine ⟨journal, ?_⟩
      simp only [Stage.race, Option.any_some, hlt, decide_true, if_true]
  finished {cancel} hcancel := by
    cases cancel with
    | none => exact stage.race_none rounds w begun work
    | some n =>
      rw [Cancellation.stage?_some_eq_none, List.length_replicate] at hcancel
      have hpos := Nat.lt_of_lt_of_le hrounds hcancel
      obtain ⟨n, rfl⟩ := Nat.exists_eq_succ_of_ne_zero (Nat.ne_of_gt hpos)
      simp only [Stage.race, Option.any_some, Nat.not_lt.mpr hcancel, decide_false,
        Bool.false_eq_true, if_false, List.length_replicate]
      rcases work w with ⟨_ | _, _⟩ <;> rfl

end Polling

section Loading

variable {w : World} {id : ContractId}

theorem ArtifactCache.get_of_peek_eq_none {c : ArtifactCache} (h : c.peek id = none) :
    (c.get id).2 = c := by
  cases c with
  | bounded c =>
    rw [peek_bounded, Option.map_eq_none_iff] at h
    show bounded (c.get id).2 = bounded c
    rw [BoundedCache.get, h]
  | unbounded table => rfl
  | forgetful => rfl

theorem World.lookUp_of_miss (h : w.cache.peek id = none) :
    ∃ journal, w.lookUp id = (none, { w with journal }) := by
  have hlook : w.lookUp id = (w.cache.peek id,
      { w.noteIf w.cache.reports (.cacheLookup id (w.cache.get id).1.isSome) with
        cache := (w.cache.get id).2 }) := rfl
  rw [hlook, h, ArtifactCache.get_of_peek_eq_none h]
  cases w.cache.reports
  · exact ⟨_, rfl⟩
  · exact ⟨_, rfl⟩

def World.loadPolls (w : World) (id : ContractId) : Nat :=
  if (w.cache.peek id).isSome then 1 else 1 + w.service.delay .getContractBytes

theorem World.allOrNothing_load (w : World) (validator : Option Validator) (id : ContractId)
    (function : String) : ∃ r v,
      Polling.AllOrNothing (w.load validator id function) w
        (List.replicate (w.loadPolls id) .acquisition) r v := by
  unfold loadPolls
  cases hp : w.cache.peek id with
  | some a =>
    have hload : w.load validator id function = fun cancel =>
        Stage.acquisition.race cancel 1 w (w.lookUp id).2 fun _ =>
          ((a.checkEntry function).map fun _ => ⟨a, true⟩, (w.lookUp id).2) := by
      funext cancel
      rw [load, w.lookUp_eq_peek, hp]
    rw [hload]
    exact ⟨_, _, Polling.allOrNothing_race _ Nat.one_pos (fun h => absurd h (Nat.lt_irrefl 1)) _⟩
  | none =>
    obtain ⟨journal, hmiss⟩ := World.lookUp_of_miss hp
    let missed : World := { w with journal }
    let cold := missed.loadCold validator id function
    have hload : w.load validator id function = fun cancel =>
        Stage.acquisition.race cancel (1 + w.service.delay .getContractBytes) w
          (missed.note (.request (.getContractBytes id)))
          fun _ => (cold.1.map fun a => ⟨a, false⟩, cold.2) := by
      funext cancel
      unfold load
      generalize w.lookUp id = found at hmiss ⊢
      subst hmiss
      dsimp only [cold, missed]
      rcases World.loadCold _ validator id function with ⟨_ | _, _⟩ <;> rfl
    rw [hload]
    exact ⟨_, _, Polling.allOrNothing_race _ (Nat.add_pos_left Nat.one_pos _)
      (fun _ => ⟨_, rfl⟩) _⟩

end Loading

def Call.polls (call : Call) (w : World) : List Stage :=
  List.replicate (1 + w.service.delay .getAccountContract) .resolution ++
    match w.service.contractOf call.contract with
    | .error _ => []
    | .ok id => List.replicate (w.loadPolls id) .acquisition

namespace Call

theorem ask_contract (call : Call) (w : World) :
    (match w.ask (.getAccountContract call.contract) with
      | (.ok id, w) => (.ok id, w)
      | (.error e, w) => (.error (.resolution call.contract.toText e), w)) =
      (w.service.contractOf call.contract,
        w.note (.request (.getAccountContract call.contract))) := by
  have hask : w.ask (.getAccountContract call.contract) =
      ((w.service.ask (.getAccountContract call.contract)).1,
        { w.note (.request (.getAccountContract call.contract)) with
          service := (w.service.ask (.getAccountContract call.contract)).2 }) := rfl
  rw [hask, w.service.ask_getAccountContract call.contract, Service.contractOf]
  cases (w.service.ask (.getAccountContract call.contract)).1 <;> rfl

theorem allOrNothing_resolve (call : Call) (w : World) :
    Polling.AllOrNothing (call.resolve · w) w
      (List.replicate (1 + w.service.delay .getAccountContract) .resolution)
      (w.service.contractOf call.contract)
      (w.note (.request (.getAccountContract call.contract))) := by
  have hrounds := Nat.add_pos_left Nat.one_pos (w.service.delay .getAccountContract)
  have hbegun : ∃ journal,
      w.note (.request (.getAccountContract call.contract)) = { w with journal } := ⟨_, rfl⟩
  have hrace := Polling.allOrNothing_race .resolution hrounds (fun _ => hbegun)
    fun w => match w.ask (.getAccountContract call.contract) with
      | (.ok id, w) => (.ok id, w)
      | (.error e, w) => (.error (.resolution call.contract.toText e), w)
  rwa [call.ask_contract w] at hrace

def acquire (call : Call) (validator : Option Validator) (w : World) :
    Polling Loaded :=
  Polling.andThen (call.resolve · w) fun id w => w.load validator id call.function

theorem allOrNothing_acquire (call : Call) (validator : Option Validator) (w : World) :
    ∃ r v, (call.acquire validator w).AllOrNothing w (call.polls w) r v := by
  have hresolve := call.allOrNothing_resolve w
  unfold polls
  cases hc : w.service.contractOf call.contract with
  | error e =>
    rw [hc] at hresolve
    rw [List.append_nil]
    exact ⟨_, _, hresolve.andThen_of_error⟩
  | ok id =>
    rw [hc] at hresolve
    -- asking for the contract changes neither the cache nor the delays of the ledger
    let asked := w.note (.request (.getAccountContract call.contract))
    obtain ⟨r, v, hload⟩ := asked.allOrNothing_load validator id call.function
    exact ⟨r, v, hresolve.andThen_of_ok hload⟩

end Call

namespace Platform

theorem prepare_eq_acquire (p : Platform) (cancel : Cancellation) (call : Call) (w : World) :
    p.prepare cancel call w = ((call.acquire p.validator w cancel).1.map Prod.fst,
      (call.acquire p.validator w cancel).2) := by
  rw [prepare_eq, Call.acquire, Polling.andThen]
  rcases call.resolve cancel w with ⟨e | ⟨id, cancel'⟩, w'⟩
  · rfl
  · dsimp only
    rcases w'.load p.validator id call.function cancel' with ⟨_ | _, _⟩ <;> rfl

theorem prepare_cancelled {p : Platform} {cancel : Cancellation} {call : Call} {w : World}
    {stage : Stage} (h : cancel.stage? (call.polls w) = some stage) :
    ∃ journal, p.prepare cancel call w = (.error (.cancelled stage), { w with journal }) := by
  obtain ⟨r, v, hacquire⟩ := call.allOrNothing_acquire p.validator w
  obtain ⟨n, rfl, hn⟩ := Option.bind_eq_some_iff.mp h
  obtain ⟨journal, hj⟩ := hacquire.cancelled hn
  refine ⟨journal, ?_⟩
  rw [prepare_eq_acquire, hj]
  rfl

theorem prepare_uncancelled {p : Platform} {cancel : Cancellation} {call : Call} {w : World}
    (h : cancel.stage? (call.polls w) = none) :
    p.prepare cancel call w = p.prepare none call w := by
  obtain ⟨r, v, hacquire⟩ := call.allOrNothing_acquire p.validator w
  have hnone : call.acquire p.validator w none = _ := hacquire.finished rfl
  rw [prepare_eq_acquire, prepare_eq_acquire, hacquire.finished h, hnone]
  cases r <;> rfl

end Platform

section Uncancelled

variable {stage : Stage}

theorem CallError.OfLoading.ne_cancelled {e : CallError} (h : e.OfLoading) :
    e ≠ .cancelled stage := by
  cases h <;> exact nofun

theorem World.load_ne_cancelled (w : World) (validator : Option Validator) (id : ContractId)
    (function : String) :
    (w.load validator id function none).1 ≠ .error (.cancelled stage) := by
  intro h
  cases hp : w.cache.peek id with
  | some a =>
    rw [World.load_of_hit hp] at h
    exact (Artifact.checkEntry_eq_error (eq_error_of_map h)).ne_cancelled rfl
  | none =>
    rw [World.load_of_miss hp, ((w.lookUp id).2.loadCold_eq validator id function).1] at h
    have hacquire := eq_error_of_map h
    unfold Service.acquire at hacquire
    split at hacquire
    next ha =>
      cases hacquire
      exact (Service.artifact_eq_error ha).ne_cancelled rfl
    next => exact (Artifact.checkEntry_eq_error (eq_error_of_map hacquire)).ne_cancelled rfl

theorem Service.contractOf_ne_cancelled (s : Service) (a : Address) :
    s.contractOf a ≠ .error (.cancelled stage) := by
  unfold contractOf
  cases (s.ask (.getAccountContract a)).1 <;> exact nofun

theorem Platform.prepare_ne_cancelled (p : Platform) (call : Call) (w : World) :
    (p.prepare none call w).1 ≠ .error (.cancelled stage) := by
  intro h
  have hresolve : call.resolve none w = _ := (call.allOrNothing_resolve w).finished rfl
  rw [prepare_eq, hresolve] at h
  cases hc : w.service.contractOf call.contract with
  | error e =>
    rw [hc] at h
    cases h
    exact w.service.contractOf_ne_cancelled call.contract hc
  | ok id =>
    rw [hc] at h
    dsimp only [Except.map] at h
    split at h
    next hl =>
      cases h
      exact World.load_ne_cancelled _ p.validator id call.function (congrArg Prod.fst hl)
    next => cases h

theorem Frame.Makes.cancel_eq_none {p : Platform} {fr fr' : Frame} {h : HostCall}
    (hm : fr.Makes p h fr') : fr'.cancel = none := by
  cases hm
  rfl

theorem Frame.run_ne_cancelled {p : Platform} {fr : Frame} (h : fr.cancel = none) :
    (p.run fr).1.output ≠ .error (.cancelled stage) := by
  intro ho
  have hc := p.course fr
  generalize p.run fr = r at hc ho
  cases hc with
  | unloaded hl =>
    cases ho
    unfold loaded at hl
    rw [h] at hl
    exact p.prepare_ne_cancelled fr.call fr.world (congrArg Prod.fst hl)
  | unfit hl hf =>
    cases ho
    obtain ⟨reason, hreason⟩ := Sandbox.prepare_eq_error hf
    cases hreason
  | unstarted hl hf hb =>
    cases ho
    cases Sandbox.runStart_eq_error hb
  | served hl hf hb hs _ hr =>
    rw [← hr] at ho
    have hserved := Sandbox.invoke_fst_eq_error (session_box hs).2 (session_entry hs) ho
    cases hserved.1

end Uncancelled

/-- Cancelling a call is all or nothing. If its cancellation is ready at one of the polls for a
contract or its artifact, the call fails in the stage that is polled, with everything but the
journal as it was and without a sandbox; else it comes to what it comes to if it cannot be
cancelled. The calls that it makes never can. -/
theorem Platform.cancelled_or_unaffected (p : Platform) (cancel : Cancellation) (call : Call)
    (w : World) :
    (∀ stage, cancel.stage? (call.polls w) = some stage →
      (p.root cancel call w).sandboxLeft? p = none ∧ ∃ journal,
        p.execute cancel call w = (⟨.error (.cancelled stage), 0⟩, { w with journal })) ∧
    (cancel.stage? (call.polls w) = none → p.execute cancel call w = p.execute none call w) ∧
    (∀ stage, (p.execute cancel call w).1.output = .error (.cancelled stage) ↔
      cancel.stage? (call.polls w) = some stage) ∧
    ∀ fr stage, Relation.TransGen (Frame.Nests p) (p.root cancel call w) fr →
      (p.run fr).1.output ≠ .error (.cancelled stage) := by
  have hcancelled {stage : Stage} (h : cancel.stage? (call.polls w) = some stage) :
      (p.root cancel call w).sandboxLeft? p = none ∧ ∃ journal,
        p.execute cancel call w = (⟨.error (.cancelled stage), 0⟩, { w with journal }) := by
    obtain ⟨journal, hj⟩ := prepare_cancelled (p := p) h
    have hloaded : (p.root cancel call w).loaded p = _ := hj
    refine ⟨by rw [Frame.sandboxLeft?, hloaded], journal, ?_⟩
    rw [execute, perform, hj]
  have hunaffected (h : cancel.stage? (call.polls w) = none) :
      p.execute cancel call w = p.execute none call w := by
    rw [execute, perform, prepare_uncancelled h]
    rfl
  refine ⟨fun stage => hcancelled, hunaffected, fun stage => ?_, fun fr stage hn => ?_⟩
  · constructor
    · intro ho
      cases hs : cancel.stage? (call.polls w) with
      | none =>
        rw [hunaffected hs, execute_eq_run] at ho
        exact absurd ho (Frame.run_ne_cancelled rfl)
      | some stage' =>
        obtain ⟨-, journal, hj⟩ := hcancelled hs
        rw [hj] at ho
        cases ho
        rfl
    · intro hs
      obtain ⟨-, journal, hj⟩ := hcancelled hs
      rw [hj]
  · have hcancel : fr.cancel = none := by
      cases hn with
      | single h => exact h.choose_spec.cancel_eq_none
      | tail _ h => exact h.choose_spec.cancel_eq_none
    exact Frame.run_ne_cancelled hcancel

end MeteredContracts
