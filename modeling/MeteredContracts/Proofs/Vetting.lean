import Mathlib.Data.List.Induction
import MeteredContracts.Proofs.Caching
import MeteredContracts.Proofs.LeastRecentlyUsed

namespace MeteredContracts

def Artifact.Offers (a : Artifact) (function : String) : Prop :=
  ∃ index type, a.module.exportedFunction? function = some index ∧
    a.module.functionType? index = some type ∧ type.params = [.i32]

theorem Artifact.offers_iff {a : Artifact} {function : String} :
    a.Offers function ↔ a.module.entry function = .callable := by
  unfold Offers Wasm.Module.entry
  cases he : a.module.exportedFunction? function with
  | none => simp
  | some index =>
    cases hf : a.module.functionType? index with
    | none => simp [hf]
    | some type => simp [hf]

theorem Artifact.checkEntry_eq_ok {a : Artifact} {function : String} :
    a.checkEntry function = .ok () ↔ a.Offers function := by
  rw [offers_iff]
  unfold checkEntry
  cases a.module.entry function <;> simp

def Service.fetch (s : Service) (id : ContractId) : Except LedgerError Bytes :=
  (s.ask (.getContractBytes id)).1

structure Load where
  world : World
  validator : Option Validator
  id : ContractId
  function : String

namespace Load

def run (l : Load) (c : ArtifactCache) : Except CallError (Loaded × Cancellation) × World :=
  World.load { l.world with cache := c } l.validator l.id l.function none

def fetch (l : Load) : Except LedgerError Bytes := l.world.service.fetch l.id

structure Vets (l : Load) (bytes : Bytes) (a : Artifact) : Prop where
  found : l.fetch = .ok bytes
  accepted : Validator.verdict l.validator bytes = .ok ()
  compiled : Artifact.compile bytes = .ok a
  offers : a.Offers l.function

structure Examines (l : Load) (c : ArtifactCache) (bytes : Bytes) : Prop where
  missed : c.peek l.id = none
  found : l.fetch = .ok bytes
  validated : l.validator.isSome

end Load

def cacheAfter (budget : Nat) (loads : List Load) : ArtifactCache :=
  loads.foldl (fun c l => (l.run c).2.cache) (.bounded { budget })

theorem cacheAfter_snoc (budget : Nat) (loads : List Load) (l : Load) :
    cacheAfter budget (loads ++ [l]) = (l.run (cacheAfter budget loads)).2.cache := by
  unfold cacheAfter
  rw [List.foldl_append]
  rfl

theorem Stage.race_none {α : Type} (stage : Stage) (rounds : Nat) (w begun : World)
    (work : World → Except CallError α × World) :
    stage.race none rounds w begun work = ((work w).1.map fun a => (a, none), (work w).2) := by
  unfold race
  rcases work w with ⟨_ | _, _⟩ <;> simp [Except.map]

section Uncancelled

variable {w : World} {id : ContractId}

theorem World.lookUp_eq_peek (w : World) (id : ContractId) :
    w.lookUp id = (w.cache.peek id, (w.lookUp id).2) := rfl

theorem World.lookUp_service (w : World) (id : ContractId) :
    (w.lookUp id).2.service = w.service := by
  obtain ⟨w', hw', hs, -⟩ := w.lookUp_eq id
  rw [hw']
  exact hs

theorem World.load_of_hit {a : Artifact} (h : w.cache.peek id = some a)
    (validator : Option Validator) (function : String) :
    w.load validator id function none =
      ((a.checkEntry function).map fun _ => (⟨a, true⟩, none), (w.lookUp id).2) := by
  unfold load
  rw [w.lookUp_eq_peek, h]
  dsimp only
  rw [Stage.race_none]
  cases a.checkEntry function <;> rfl

theorem World.load_of_miss (h : w.cache.peek id = none) (validator : Option Validator)
    (function : String) :
    w.load validator id function none =
      (((w.lookUp id).2.loadCold validator id function).1.map fun a => (⟨a, false⟩, none),
        ((w.lookUp id).2.loadCold validator id function).2) := by
  unfold load
  rw [w.lookUp_eq_peek, h]
  dsimp only
  rw [Stage.race_none]
  rcases (w.lookUp id).2.loadCold validator id function with ⟨_ | _, _⟩ <;> rfl

end Uncancelled

namespace Load

def acquire (l : Load) : Except CallError Artifact :=
  l.world.service.acquire l.validator l.id l.function

theorem acquire_eq_ok {l : Load} {a : Artifact} :
    l.acquire = .ok a ↔ ∃ bytes, l.Vets bytes a := by
  unfold acquire Service.acquire Service.artifact
  constructor
  · intro h
    cases hb : (l.world.service.ask (.getContractBytes l.id)).1 with
    | error e => simp [hb] at h
    | ok bytes =>
      cases hv : Validator.verdict l.validator bytes with
      | error reason => simp [hb, hv] at h
      | ok _ =>
        cases hc : Artifact.compile bytes with
        | error e => simp [hb, hv, hc] at h
        | ok a' =>
          cases he : a'.checkEntry l.function with
          | error e => simp [hb, hv, hc, he, Except.map] at h
          | ok _ =>
            simp only [hb, hv, hc, he, Except.map, Except.ok.injEq] at h
            subst h
            exact ⟨bytes, hb, hv, hc, Artifact.checkEntry_eq_ok.mp he⟩
  · rintro ⟨bytes, hfound, haccepted, hcompiled, hoffers⟩
    have hfound' : (l.world.service.ask (.getContractBytes l.id)).1 = .ok bytes := hfound
    simp [hfound', haccepted, hcompiled, Artifact.checkEntry_eq_ok.mpr hoffers, Except.map]

variable {l : Load} {c : ArtifactCache}

theorem run_of_hit {a : Artifact} (h : c.peek l.id = some a) :
    (l.run c).1.map (fun r => r.1.artifact) = (a.checkEntry l.function).map (fun _ => a) ∧
      (l.run c).2.cache = (c.get l.id).2 := by
  unfold run
  rw [World.load_of_hit (w := { l.world with cache := c }) h]
  constructor
  · cases a.checkEntry l.function <;> rfl
  · rfl

theorem run_of_miss (h : c.peek l.id = none) :
    (l.run c).1.map (fun r => r.1.artifact) = l.acquire ∧
      (l.run c).2.cache = match l.acquire with
        | .error _ => (c.get l.id).2
        | .ok a => (c.get l.id).2.put l.id a := by
  obtain ⟨hcold, hcache⟩ := World.loadCold_eq (World.lookUp { l.world with cache := c } l.id).2
    l.validator l.id l.function
  rw [World.lookUp_service] at hcold hcache
  unfold run
  rw [World.load_of_miss (w := { l.world with cache := c }) h]
  constructor
  · have hacquire : l.acquire = _ := hcold.symm
    rw [hacquire]
    rcases World.loadCold _ l.validator l.id l.function with ⟨_ | _, _⟩ <;> rfl
  · exact hcache

end Load

namespace World

def shown (w : World) : List Nat :=
  w.journal.toList.filterMap fun
    | .validation size => some size
    | _ => none

theorem shown_note (w : World) (e : Event) (he : ∀ size, e ≠ .validation size) :
    (w.note e).shown = w.shown := by
  unfold shown note
  rw [Array.toList_push, List.filterMap_append]
  cases e with
  | validation size => exact absurd rfl (he size)
  | _ => simp

theorem shown_validation (w : World) (size : Nat) :
    (w.note (.validation size)).shown = w.shown ++ [size] := by
  unfold shown note
  simp

theorem shown_lookUp (w : World) (id : ContractId) : (w.lookUp id).2.shown = w.shown := by
  show (w.noteIf w.cache.reports (.cacheLookup id (w.cache.get id).1.isSome)).shown = w.shown
  cases w.cache.reports
  · rfl
  · exact w.shown_note _ nofun

theorem shown_keep (w : World) (id : ContractId) (a : Artifact) :
    (w.keep id a).shown = w.shown := by
  show (w.noteIf w.cache.reports (.cacheStore id a.digest)).shown = w.shown
  cases w.cache.reports
  · rfl
  · exact w.shown_note _ nofun

theorem shown_validate (w : World) (validator : Option Validator) (id : ContractId)
    (bytes : Bytes) : (w.validate validator id bytes).2.shown =
      w.shown ++ if validator.any (·.reports) then [bytes.length] else [] := by
  cases validator with
  | none => simp [validate]
  | some v =>
    have hshown : (w.noteIf v.reports (.validation bytes.length)).shown =
        w.shown ++ if v.reports then [bytes.length] else [] := by
      cases v.reports
      · simp [noteIf]
      · simp [noteIf, shown_validation]
    unfold validate
    dsimp only
    rw [Option.any_some, ← hshown]
    cases v.check bytes <;> rfl

theorem shown_loadCold (w : World) (validator : Option Validator) (id : ContractId)
    (function : String) : (w.loadCold validator id function).2.shown =
      match w.service.fetch id with
      | .error _ => w.shown
      | .ok bytes => w.shown ++ if validator.any (·.reports) then [bytes.length] else [] := by
  have hask : w.ask (.getContractBytes id) =
      (w.service.fetch id, (w.ask (.getContractBytes id)).2) := rfl
  have hasked : (w.ask (.getContractBytes id)).2.shown = w.shown :=
    w.shown_note (.request (.getContractBytes id)) nofun
  unfold loadCold
  rw [hask]
  cases w.service.fetch id with
  | error e => exact hasked
  | ok bytes =>
    have hvalidate := (w.ask (.getContractBytes id)).2.shown_validate validator id bytes
    rw [hasked] at hvalidate
    dsimp only
    rw [← hvalidate]
    rcases (w.ask (.getContractBytes id)).2.validate validator id bytes with ⟨e | _, w'⟩
    · rfl
    · dsimp only
      cases Artifact.compile bytes with
      | error e => rfl
      | ok a =>
        dsimp only
        cases a.checkEntry function with
        | error e => rfl
        | ok _ => exact w'.shown_keep id a

end World

namespace Load

def watched (l : Load) : Load :=
  { l with
    world := { l.world with journal := #[] }
    validator := l.validator.map fun v => { v with reports := true } }

def shown (l : Load) (c : ArtifactCache) : List Nat := (l.watched.run c).2.shown

variable {l : Load} {c : ArtifactCache}

theorem watched_acquire (l : Load) : l.watched.acquire = l.acquire := by
  have hverdict (bytes : Bytes) :
      Validator.verdict l.watched.validator bytes = Validator.verdict l.validator bytes := by
    unfold watched
    cases l.validator <;> rfl
  unfold acquire Service.acquire Service.artifact
  simp only [hverdict]
  rfl

theorem watched_run (l : Load) (c : ArtifactCache) :
    (l.watched.run c).1.map (fun r => r.1.artifact) = (l.run c).1.map (fun r => r.1.artifact) ∧
      (l.watched.run c).2.cache = (l.run c).2.cache := by
  cases h : c.peek l.id with
  | some a =>
    have hwatched := run_of_hit (l := l.watched) h
    have hrun := run_of_hit (l := l) h
    exact ⟨hwatched.1.trans hrun.1.symm, hwatched.2.trans hrun.2.symm⟩
  | none =>
    have hwatched := run_of_miss (l := l.watched) h
    have hrun := run_of_miss (l := l) h
    rw [watched_acquire] at hwatched
    exact ⟨hwatched.1.trans hrun.1.symm, hwatched.2.trans hrun.2.symm⟩

theorem shown_of_hit {a : Artifact} (h : c.peek l.id = some a) : l.shown c = [] := by
  have hwatched : c.peek l.watched.id = some a := h
  unfold shown run
  rw [World.load_of_hit (w := { l.watched.world with cache := c }) hwatched]
  exact World.shown_lookUp { l.watched.world with cache := c } l.id

theorem shown_of_miss (h : c.peek l.id = none) : l.shown c = match l.fetch with
    | .error _ => []
    | .ok bytes => if l.validator.isSome then [bytes.length] else [] := by
  have hlooked : (World.lookUp { l.watched.world with cache := c } l.id).2.shown = [] :=
    World.shown_lookUp { l.watched.world with cache := c } l.id
  have hreports : l.watched.validator.any (·.reports) = l.validator.isSome := by
    unfold watched
    cases l.validator <;> rfl
  have hcold := World.shown_loadCold (World.lookUp { l.watched.world with cache := c } l.id).2
    l.watched.validator l.id l.function
  rw [World.lookUp_service, hlooked, hreports] at hcold
  have hwatched : c.peek l.watched.id = none := h
  unfold shown run
  rw [World.load_of_miss (w := { l.watched.world with cache := c }) hwatched]
  exact hcold

theorem shown_of_examines {bytes : Bytes} (h : l.Examines c bytes) :
    l.shown c = [bytes.length] := by
  simp [shown_of_miss h.missed, h.found, h.validated]

theorem shown_of_not_examines (h : ∀ bytes, ¬l.Examines c bytes) : l.shown c = [] := by
  cases hp : c.peek l.id with
  | some a => exact shown_of_hit hp
  | none =>
    rw [shown_of_miss hp]
    cases hf : l.fetch with
    | error e => rfl
    | ok bytes =>
      have hnone : ¬l.validator.isSome := fun hv => h bytes ⟨hp, hf, hv⟩
      simp [hnone]

end Load

namespace BoundedCache

variable {c : BoundedCache Artifact}

theorem Sound.peek_eq_some (h : c.Sound) {id : ContractId} {a : Artifact} :
    (ArtifactCache.bounded c).peek id = some a ↔ ∃ e ∈ c.entries, e.id = id ∧ e.value = a := by
  rw [ArtifactCache.peek_bounded, Option.map_eq_some_iff]
  constructor
  · rintro ⟨e, hf, hvalue⟩
    exact ⟨e, List.mem_of_find?_eq_some hf, by simpa using List.find?_some hf, hvalue⟩
  · rintro ⟨e, he, rfl, rfl⟩
    cases hf : c.find? e.id with
    | none =>
      have habsent := List.find?_eq_none.mp hf e he
      simp at habsent
    | some e' =>
      have hid : e'.id = e.id := by simpa using List.find?_some hf
      have heq : e' = e := List.inj_on_of_nodup_map h.nodup (List.mem_of_find?_eq_some hf) he hid
      exact ⟨e', rfl, by rw [heq]⟩

theorem Sound.mem_put (h : c.Sound) {id : ContractId} {a : Artifact} {size : Nat}
    {e : CacheEntry Artifact} (he : e ∈ (c.put id a size).entries) :
    e ∈ c.entries ∨ e.id = id ∧ e.value = a := by
  by_cases hfits : id.size + size ≤ c.budget
  · obtain ⟨kept, used, hput, -, hrun⟩ := h.put_eq a hfits
    rw [hput] at he
    obtain rfl | hkept := List.mem_cons.mp he
    · exact .inr ⟨rfl, rfl⟩
    · exact .inl ((h.parts id).sublist.subset (hrun.run.subset hkept))
  · rw [c.put_of_exceeds a (Nat.not_le.mp hfits)] at he
    exact .inl he

theorem Sound.get_perm (h : c.Sound) (id : ContractId) :
    (c.get id).2.entries.Perm c.entries ∧ (c.get id).2.used = c.used := by
  rw [c.get_eq]
  exact ⟨(h.parts id).perm.symm, rfl⟩

end BoundedCache

namespace Load

theorem run_bounded (l : Load) {c : BoundedCache Artifact} (h : c.Sound) :
    ∃ c', (l.run (.bounded c)).2.cache = .bounded c' ∧ c'.Sound ∧
      (c'.entries.Perm c.entries ∧ c'.used = c.used ∨
        (ArtifactCache.bounded c).peek l.id = none ∧ (∃ r, (l.run (.bounded c)).1 = .ok r) ∧
          ∃ bytes a, l.Vets bytes a ∧
            ∀ e ∈ c'.entries, e ∈ c.entries ∨ e.id = l.id ∧ e.value = a) := by
  have hget := h.get_perm l.id
  cases hp : (ArtifactCache.bounded c).peek l.id with
  | some a => exact ⟨_, (run_of_hit hp).2, h.get l.id, .inl hget⟩
  | none =>
    obtain ⟨hartifact, hcache⟩ := run_of_miss hp
    cases ha : l.acquire with
    | error e =>
      rw [ha] at hcache
      exact ⟨_, hcache, h.get l.id, .inl hget⟩
    | ok a =>
      rw [ha] at hartifact hcache
      obtain ⟨bytes, hvets⟩ := acquire_eq_ok.mp ha
      refine ⟨_, hcache, (h.get l.id).put l.id a a.size, .inr ⟨rfl, ?_, bytes, a, hvets, ?_⟩⟩
      · cases hr : (l.run (.bounded c)).1 with
        | error e => simp [hr, Except.map] at hartifact
        | ok r => exact ⟨r, rfl⟩
      · intro e he
        obtain he | hnew := (h.get l.id).mem_put he
        · exact .inl (hget.1.subset he)
        · exact .inr hnew

theorem run_eq_ok {l : Load} {c : ArtifactCache} {a : Artifact} :
    (∃ r, (l.run c).1 = .ok r ∧ r.1.artifact = a) ↔
      c.peek l.id = some a ∧ a.Offers l.function ∨
        c.peek l.id = none ∧ ∃ bytes, l.Vets bytes a := by
  have hmap : (∃ r, (l.run c).1 = .ok r ∧ r.1.artifact = a) ↔
      (l.run c).1.map (fun r => r.1.artifact) = .ok a := by
    cases (l.run c).1 <;> simp [Except.map]
  rw [hmap]
  cases hp : c.peek l.id with
  | some a' =>
    rw [(run_of_hit hp).1, ← Artifact.checkEntry_eq_ok]
    constructor
    · intro h
      cases he : a'.checkEntry l.function with
      | error e => simp [he, Except.map] at h
      | ok u =>
        simp only [he, Except.map, Except.ok.injEq] at h
        subst h
        exact .inl ⟨rfl, he⟩
    · rintro (⟨⟨⟩, he⟩ | ⟨⟨⟩, -⟩)
      rw [he]
      rfl
  | none =>
    rw [(run_of_miss hp).1, acquire_eq_ok]
    simp

end Load

structure Admission (budget : Nat) (e : CacheEntry Artifact) (before : List Load) (l : Load)
    (after : List Load) : Prop where
  id : l.id = e.id
  missed : (cacheAfter budget before).peek l.id = none
  vetted : ∃ bytes, l.Vets bytes e.value
  stayed : ∀ between rest, after = between ++ rest →
    (cacheAfter budget (before ++ l :: between)).peek e.id = some e.value

theorem Admission.snoc {budget : Nat} {e : CacheEntry Artifact} {before after : List Load}
    {l : Load} (h : Admission budget e before l after) (l' : Load)
    (hstays : (cacheAfter budget (before ++ l :: (after ++ [l']))).peek e.id = some e.value) :
    Admission budget e before l (after ++ [l']) where
  id := h.id
  missed := h.missed
  vetted := h.vetted
  stayed between rest heq := by
    -- it stays until the new load, for which `hstays` speaks
    obtain rfl | ⟨rest, last, rfl⟩ := rest.eq_nil_or_concat
    · rw [List.append_nil] at heq
      rwa [← heq]
    · rw [List.concat_eq_append, ← List.append_assoc] at heq
      exact h.stayed between rest (List.append_inj_left' heq rfl)

theorem cacheAfter_admits (budget : Nat) (loads : List Load) :
    ∃ c : BoundedCache Artifact, cacheAfter budget loads = .bounded c ∧ c.Sound ∧
      ∀ e ∈ c.entries, ∃ before l after, loads = before ++ l :: after ∧
        Admission budget e before l after := by
  -- from the first load on: what the last one leaves in the cache was there before, or is its own
  induction loads using List.reverseRecOn with
  | nil => exact ⟨_, rfl, BoundedCache.sound_empty budget, nofun⟩
  | append_singleton loads l ih =>
    obtain ⟨c, hc, hsound, hadmitted⟩ := ih
    obtain ⟨c', hc', hsound', hcourse⟩ := l.run_bounded hsound
    have hsnoc : cacheAfter budget (loads ++ [l]) = .bounded c' := by
      rw [cacheAfter_snoc, hc, hc']
    refine ⟨c', hsnoc, hsound', fun e he => ?_⟩
    have hstays := hsound'.peek_eq_some.mpr ⟨e, he, rfl, rfl⟩
    have hold : e ∈ c.entries → ∃ before l' after, loads ++ [l] = before ++ l' :: after ∧
        Admission budget e before l' after := by
      intro he
      obtain ⟨before, l', after, rfl, hadmission⟩ := hadmitted e he
      refine ⟨before, l', after ++ [l], by simp, hadmission.snoc l ?_⟩
      rw [← List.cons_append, ← List.append_assoc, hsnoc]
      exact hstays
    obtain ⟨hperm, -⟩ | ⟨hmissed, -, bytes, a, hvets, hentries⟩ := hcourse
    · exact hold (hperm.subset he)
    · obtain he | ⟨hid, ha⟩ := hentries e he
      · exact hold he
      · refine ⟨loads, l, [], rfl, hid.symm, hc ▸ hmissed, ⟨bytes, ha ▸ hvets⟩, ?_⟩
        intro between rest hnil
        obtain ⟨rfl, -⟩ := List.append_eq_nil_iff.mp hnil.symm
        rw [hsnoc]
        exact hstays

/-- Nothing is cached, and nothing is handed out, that was not vetted: whatever was loaded before.
While an entry stays in the cache, no validator is shown anything under its name. -/
theorem only_vetted (budget : Nat) (loads : List Load) :
    ∃ c : BoundedCache Artifact, cacheAfter budget loads = .bounded c ∧
      (∀ e ∈ c.entries, ∃ before l after, loads = before ++ l :: after ∧
        Admission budget e before l after ∧
        ∀ between l' rest, after = between ++ l' :: rest → l'.id = e.id →
          l'.shown (cacheAfter budget (before ++ l :: between)) = []) ∧
      ∀ l : Load,
        (∀ bytes, l.Examines (.bounded c) bytes → l.shown (.bounded c) = [bytes.length]) ∧
        ((∀ bytes, ¬l.Examines (.bounded c) bytes) → l.shown (.bounded c) = []) ∧
        (∀ e, (l.run (.bounded c)).1 = .error e → ∃ c' : BoundedCache Artifact,
          (l.run (.bounded c)).2.cache = .bounded c' ∧ c'.entries.Perm c.entries ∧
            c'.used = c.used) ∧
        (∀ r, (l.run (.bounded c)).1 = .ok r →
          r.1.artifact.module.entry l.function = .callable ∧
          ∃ l' ∈ l :: loads, l'.id = l.id ∧ ∃ bytes, l'.Vets bytes r.1.artifact) ∧
        ∀ bytes a, (ArtifactCache.bounded c).peek l.id = none → l.Vets bytes a →
          ∃ r, (l.run (.bounded c)).1 = .ok r ∧ r.1.artifact = a := by
  obtain ⟨c, hc, hsound, hadmitted⟩ := cacheAfter_admits budget loads
  refine ⟨c, hc, fun e he => ?_, fun l => ⟨fun bytes => Load.shown_of_examines,
    Load.shown_of_not_examines, fun e he => ?_, fun r hr => ?_, fun bytes a hmissed hvets => ?_⟩⟩
  · obtain ⟨before, l, after, heq, hadmission⟩ := hadmitted e he
    refine ⟨before, l, after, heq, hadmission, fun between l' rest hafter hid => ?_⟩
    have hstayed := hadmission.stayed between (l' :: rest) hafter
    rw [← hid] at hstayed
    exact Load.shown_of_hit hstayed
  · obtain ⟨c', hc', -, ⟨hperm, hused⟩ | ⟨-, ⟨r, hr⟩, -⟩⟩ := l.run_bounded hsound
    · exact ⟨c', hc', hperm, hused⟩
    · rw [he] at hr
      cases hr
  · obtain ⟨hpeek, hoffers⟩ | ⟨-, bytes, hvets⟩ := Load.run_eq_ok.mp ⟨r, hr, rfl⟩
    · obtain ⟨e, he, hid, hvalue⟩ := hsound.peek_eq_some.mp hpeek
      obtain ⟨before, l', after, rfl, hadmission⟩ := hadmitted e he
      refine ⟨Artifact.offers_iff.mp hoffers, l', by simp, hadmission.id.trans hid, ?_⟩
      rw [← hvalue]
      exact hadmission.vetted
    · exact ⟨Artifact.offers_iff.mp hvets.offers, l, List.mem_cons_self, rfl, bytes, hvets⟩
  · exact Load.run_eq_ok.mpr (.inr ⟨hmissed, bytes, hvets⟩)

end MeteredContracts
