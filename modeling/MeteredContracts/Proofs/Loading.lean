import MeteredContracts.Proofs.CallTree

namespace MeteredContracts

namespace Service

theorem ask_of_unchanged {s : Service} {r : Request} (h : (s.ledger.serve r).2 = s.ledger) :
    (s.ask r).2 = s := by
  unfold ask
  split
  · rfl
  · show { s with ledger := (s.ledger.serve r).2 } = s
    rw [h]

theorem ask_getAccountContract (s : Service) (a : Address) :
    (s.ask (.getAccountContract a)).2 = s := ask_of_unchanged rfl

theorem ask_getContractBytes (s : Service) (id : ContractId) :
    (s.ask (.getContractBytes id)).2 = s := ask_of_unchanged rfl

end Service

namespace World

def Loads (u v : World) : Prop := ∃ cache journal, v = { u with cache, journal }

namespace Loads

theorem refl (w : World) : w.Loads w := ⟨w.cache, w.journal, rfl⟩

theorem trans {u v w : World} (h : u.Loads v) (h' : v.Loads w) : u.Loads w := by
  obtain ⟨_, _, rfl⟩ := h
  obtain ⟨cache, journal, rfl⟩ := h'
  exact ⟨cache, journal, rfl⟩

end Loads

theorem loads_note (w : World) (e : Event) : w.Loads (w.note e) := ⟨w.cache, _, rfl⟩

theorem loads_noteIf (w : World) (b : Bool) (e : Event) : w.Loads (w.noteIf b e) := by
  cases b
  · exact .refl w
  · exact w.loads_note e

theorem loads_ask {w : World} {r : Request} (h : (w.service.ask r).2 = w.service) :
    w.Loads (w.ask r).2 := by
  have hw : (w.ask r).2 = { w.note (.request r) with service := (w.service.ask r).2 } := rfl
  rw [hw, h]
  exact w.loads_note _

theorem loads_lookUp (w : World) (id : ContractId) : w.Loads (w.lookUp id).2 :=
  (w.loads_noteIf w.cache.reports (.cacheLookup id (w.cache.get id).1.isSome)).trans
    ⟨(w.cache.get id).2, _, rfl⟩

theorem loads_keep (w : World) (id : ContractId) (a : Artifact) : w.Loads (w.keep id a) :=
  (w.loads_noteIf w.cache.reports (.cacheStore id a.digest)).trans ⟨w.cache.put id a, _, rfl⟩

theorem loads_validate (w : World) (validator : Option Validator) (id : ContractId)
    (bytes : Bytes) : w.Loads (w.validate validator id bytes).2 := by
  unfold validate
  split
  · exact .refl w
  · dsimp only
    split
    · exact w.loads_noteIf _ _
    · exact w.loads_noteIf _ _

theorem loads_loadCold (w : World) (validator : Option Validator) (id : ContractId)
    (function : String) : w.Loads (w.loadCold validator id function).2 := by
  have hask := loads_ask (w.service.ask_getContractBytes id)
  unfold loadCold
  rcases ha : w.ask (.getContractBytes id) with ⟨e | bytes, w'⟩
  · rwa [ha] at hask
  · rw [ha] at hask
    have hvalid := hask.trans (w'.loads_validate validator id bytes)
    dsimp only
    rcases hv : w'.validate validator id bytes with ⟨e | _, w''⟩
    · rwa [hv] at hvalid
    · rw [hv] at hvalid
      dsimp only
      split
      · exact hvalid
      · split
        · exact hvalid
        · exact hvalid.trans (w''.loads_keep id _)

end World

def Stage.settle {α : Type} (stage : Stage) (cancel : Cancellation) (rounds : Nat)
    (r : Except CallError α) : Except CallError (α × Cancellation) :=
  if cancel = some 0 ∨ cancel.any (· < rounds) then .error (.cancelled stage)
  else r.map fun a => (a, cancel.map (· - rounds))

section Race

variable {α : Type} {stage : Stage} {cancel : Cancellation} {rounds : Nat} {w begun : World}
  {work : World → Except CallError α × World}

theorem Stage.race_fst :
    (stage.race cancel rounds w begun work).1 = stage.settle cancel rounds (work w).1 := by
  unfold race settle
  split
  · exact (if_pos (.inl rfl)).symm
  next h0 =>
    split
    next hc => exact (if_pos (.inr hc)).symm
    next hc =>
      rw [if_neg fun h => h.elim h0 hc]
      rcases work w with ⟨_ | _, _⟩ <;> rfl

theorem Stage.race_elim {P : Except CallError α → World → Prop}
    (unbegun : P (.error (.cancelled stage)) w) (unfinished : P (.error (.cancelled stage)) begun)
    (finished : P (work w).1 (work w).2) :
    P ((stage.race cancel rounds w begun work).1.map Prod.fst)
      (stage.race cancel rounds w begun work).2 := by
  unfold race
  split
  · exact unbegun
  · split
    · exact unfinished
    · rcases hw : work w with ⟨_ | _, _⟩
      · rwa [hw] at finished
      · rwa [hw] at finished

end Race

def Service.contractOf (s : Service) (a : Address) : Except CallError ContractId :=
  match (s.ask (.getAccountContract a)).1 with
  | .ok id => .ok id
  | .error e => .error (.resolution a.toText e)

def Call.resolve (call : Call) (cancel : Cancellation) (w : World) :
    Except CallError (ContractId × Cancellation) × World :=
  Stage.resolution.race cancel (1 + w.service.delay .getAccountContract) w
    (w.note (.request (.getAccountContract call.contract))) fun w =>
      match w.ask (.getAccountContract call.contract) with
      | (.ok id, w) => (.ok id, w)
      | (.error e, w) => (.error (.resolution call.contract.toText e), w)

namespace Call

variable (call : Call) (cancel : Cancellation) (w : World)

theorem resolve_fst : (call.resolve cancel w).1 =
    Stage.resolution.settle cancel (1 + w.service.delay .getAccountContract)
      (w.service.contractOf call.contract) := by
  unfold resolve
  rw [Stage.race_fst]
  congr 1
  have hask : w.ask (.getAccountContract call.contract) =
      ((w.service.ask (.getAccountContract call.contract)).1,
        (w.ask (.getAccountContract call.contract)).2) := rfl
  unfold Service.contractOf
  rw [hask]
  cases (w.service.ask (.getAccountContract call.contract)).1 <;> rfl

theorem resolve_snd : ∃ journal, (call.resolve cancel w).2 = { w with journal } := by
  have hask : (w.ask (.getAccountContract call.contract)).2 =
      w.note (.request (.getAccountContract call.contract)) := by
    have hw : (w.ask (.getAccountContract call.contract)).2 =
        { w.note (.request (.getAccountContract call.contract)) with
          service := (w.service.ask (.getAccountContract call.contract)).2 } := rfl
    rw [hw, w.service.ask_getAccountContract call.contract]
    rfl
  refine Stage.race_elim (P := fun _ v => ∃ journal, v = { w with journal })
    ⟨w.journal, rfl⟩ ⟨_, rfl⟩ ?_
  split
  next h =>
    rw [h] at hask
    exact ⟨_, hask⟩
  next h =>
    rw [h] at hask
    exact ⟨_, hask⟩

end Call

theorem World.loads_load (w : World) (validator : Option Validator) (id : ContractId)
    (function : String) (cancel : Cancellation) :
    w.Loads (w.load validator id function cancel).2 := by
  have hlook := w.loads_lookUp id
  unfold load
  rcases hl : w.lookUp id with ⟨_ | a, w'⟩
  · rw [hl] at hlook
    have hcold := hlook.trans (w'.loads_loadCold validator id function)
    refine Stage.race_elim (P := fun _ v => w.Loads v) (.refl w) (hlook.trans (w'.loads_note _)) ?_
    split
    next h =>
      rw [h] at hcold
      exact hcold
    next h =>
      rw [h] at hcold
      exact hcold
  · rw [hl] at hlook
    exact Stage.race_elim (P := fun _ v => w.Loads v) (.refl w) hlook hlook

namespace Platform

variable (p : Platform) (cancel : Cancellation) (call : Call) (w : World)

theorem prepare_eq : p.prepare cancel call w =
    match call.resolve cancel w with
    | (.error e, w) => (.error e, w)
    | (.ok (id, cancel), w) =>
      match w.load p.validator id call.function cancel with
      | (.error e, w) => (.error e, w)
      | (.ok (loaded, _), w) => (.ok loaded, w) := by
  unfold prepare
  dsimp only
  split
  next e w' h =>
    have hr : call.resolve cancel w = (.error e, w') := h
    exact hr ▸ rfl
  next id cancel' w' h =>
    have hr : call.resolve cancel w = (.ok (id, cancel'), w') := h
    exact hr ▸ rfl

theorem loads_prepare : w.Loads (p.prepare cancel call w).2 := by
  obtain ⟨journal, hj⟩ := call.resolve_snd cancel w
  have hresolve : w.Loads (call.resolve cancel w).2 := ⟨w.cache, journal, hj⟩
  rw [prepare_eq]
  rcases hr : call.resolve cancel w with ⟨e | ⟨id, cancel'⟩, w'⟩
  · rwa [hr] at hresolve
  · rw [hr] at hresolve
    have hload := hresolve.trans (w'.loads_load p.validator id call.function cancel')
    dsimp only
    split
    next h =>
      rw [h] at hload
      exact hload
    next h =>
      rw [h] at hload
      exact hload

end Platform

theorem Frame.loads_loaded (p : Platform) (fr : Frame) : fr.world.Loads (fr.loaded p).2 :=
  p.loads_prepare fr.cancel fr.call fr.world

end MeteredContracts
