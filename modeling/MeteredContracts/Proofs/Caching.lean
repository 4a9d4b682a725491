import MeteredContracts.Proofs.CacheUses
import MeteredContracts.Proofs.Loading

/-!
What caches remember. A cache answers with what was put under a name, or not at all, so a cache
whose entries are what the ledger would yield again stays such a cache: loading from it comes to the
same artifact, or the same refusal, as loading from the ledger.
-/

namespace MeteredContracts

namespace ArtifactCache

def peek (c : ArtifactCache) (id : ContractId) : Option Artifact := (c.get id).1

theorem peek_bounded (c : BoundedCache Artifact) (id : ContractId) :
    (bounded c).peek id = (c.find? id).map (·.value) := c.get_fst id

theorem peek_get (c : ArtifactCache) (id id' : ContractId) :
    (c.get id).2.peek id' = c.peek id' := by
  cases c with
  | bounded c =>
    show (bounded (c.get id).2).peek id' = _
    rw [peek_bounded, peek_bounded, c.find?_get]
  | unbounded table => rfl
  | forgetful => rfl

theorem peek_put {c : ArtifactCache} {id id' : ContractId} {a b : Artifact}
    (h : (c.put id a).peek id' = some b) : id' = id ∧ b = a ∨ c.peek id' = some b := by
  cases c with
  | bounded c =>
    change (bounded (c.put id a a.size)).peek id' = _ at h
    rw [peek_bounded, Option.map_eq_some_iff] at h
    obtain ⟨e, he, rfl⟩ := h
    rw [peek_bounded]
    by_cases hid : id' = id
    · rw [hid, c.find?_put_self] at he
      split at he
      · cases he
        exact .inl ⟨hid, rfl⟩
      · exact .inr (by rw [hid, he, Option.map_some])
    · exact .inr (by rw [c.find?_put_other a a.size hid he, Option.map_some])
  | unbounded table =>
    change (table.insert id a).get? id' = _ at h
    rw [Table.get?_insert] at h
    split at h
    next hid =>
      cases h
      exact .inl ⟨hid, rfl⟩
    next => exact .inr h
  | forgetful => cases h

end ArtifactCache

def Cancellation.Misses (cancel : Cancellation) (rounds : Nat) : Prop :=
  ∀ polls, cancel = some polls → polls = 0 ∨ rounds ≤ polls

theorem Stage.settle_map {α β : Type} {stage : Stage} {cancel : Cancellation} {rounds : Nat}
    {r : Except CallError α} (hc : cancel.Misses rounds) (f : α → β) :
    (stage.settle cancel rounds r).map (fun a => f a.1) =
      if cancel = some 0 then .error (.cancelled stage) else r.map f := by
  unfold settle
  by_cases h0 : cancel = some 0
  · rw [if_pos (.inl h0), if_pos h0]
    rfl
  · have hmissed : ¬cancel.any (· < rounds) := by
      cases cancel with
      | none => exact Bool.false_ne_true
      | some polls =>
        have hge := (hc polls rfl).resolve_left fun h => h0 (congrArg some h)
        simpa using hge
    rw [if_neg (not_or.mpr ⟨h0, hmissed⟩), if_neg h0]
    cases r <;> rfl

def Validator.verdict : Option Validator → Bytes → Except String Unit
  | none, _ => .ok ()
  | some v, bytes => v.check bytes

def Service.artifact (s : Service) (validator : Option Validator) (id : ContractId) :
    Except CallError Artifact :=
  match (s.ask (.getContractBytes id)).1 with
  | .error e => .error (.byteRetrieval id.toText e)
  | .ok bytes =>
    match Validator.verdict validator bytes with
    | .error reason => .error (.validation id.toText reason)
    | .ok _ => Artifact.compile bytes

def Service.acquire (s : Service) (validator : Option Validator) (id : ContractId)
    (function : String) : Except CallError Artifact :=
  match s.artifact validator id with
  | .error e => .error e
  | .ok a => (a.checkEntry function).map fun _ => a

theorem Service.artifact_eq_ok {s : Service} {validator : Option Validator} {id : ContractId}
    {a : Artifact} (h : s.artifact validator id = .ok a) :
    ∃ bytes, (s.ask (.getContractBytes id)).1 = .ok bytes ∧ Artifact.compile bytes = .ok a := by
  unfold artifact at h
  cases hb : (s.ask (.getContractBytes id)).1 with
  | error e =>
    rw [hb] at h
    cases h
  | ok bytes =>
    rw [hb] at h
    dsimp only at h
    split at h
    · cases h
    · exact ⟨bytes, rfl, h⟩

theorem Service.acquire_eq_ok {s : Service} {validator : Option Validator} {id : ContractId}
    {function : String} {a : Artifact} (h : s.acquire validator id function = .ok a) :
    s.artifact validator id = .ok a := by
  unfold acquire at h
  cases ha : s.artifact validator id with
  | error e =>
    rw [ha] at h
    cases h
  | ok b =>
    rw [ha] at h
    dsimp only at h
    cases hc : b.checkEntry function with
    | error e =>
      rw [hc] at h
      cases h
    | ok u =>
      rw [hc] at h
      cases h
      rfl

namespace World

/-- All that the cache holds is what the ledger would yield again. -/
def Faithful (validator : Option Validator) (w : World) : Prop :=
  ∀ id a, w.cache.peek id = some a → w.service.artifact validator id = .ok a

theorem validate_eq (w : World) (validator : Option Validator) (id : ContractId) (bytes : Bytes) :
    ∃ w', w.validate validator id bytes = (match Validator.verdict validator bytes with
      | .error reason => .error (.validation id.toText reason)
      | .ok _ => .ok (), w') ∧ w'.cache = w.cache := by
  cases validator with
  | none => exact ⟨w, rfl, rfl⟩
  | some v =>
    have hn : (w.noteIf v.reports (.validation bytes.length)).cache = w.cache := by
      cases v.reports <;> rfl
    refine ⟨_, ?_, hn⟩
    unfold validate Validator.verdict
    dsimp only
    cases v.check bytes <;> rfl

theorem keep_cache (w : World) (id : ContractId) (a : Artifact) :
    (w.keep id a).cache = w.cache.put id a := rfl

theorem loadCold_eq (w : World) (validator : Option Validator) (id : ContractId)
    (function : String) :
    (w.loadCold validator id function).1 = w.service.acquire validator id function ∧
    (w.loadCold validator id function).2.cache =
      match w.service.acquire validator id function with
      | .error _ => w.cache
      | .ok a => w.cache.put id a := by
  unfold loadCold Service.acquire Service.artifact
  have hask : w.ask (.getContractBytes id) =
      ((w.service.ask (.getContractBytes id)).1, (w.ask (.getContractBytes id)).2) := rfl
  have hcache : (w.ask (.getContractBytes id)).2.cache = w.cache := rfl
  rw [hask]
  cases (w.service.ask (.getContractBytes id)).1 with
  | error e => exact ⟨rfl, hcache⟩
  | ok bytes =>
    dsimp only
    obtain ⟨w', hw, hc⟩ := (w.ask (.getContractBytes id)).2.validate_eq validator id bytes
    rw [hw]
    replace hc := hc.trans hcache
    cases Validator.verdict validator bytes with
    | error reason => exact ⟨rfl, hc⟩
    | ok _ =>
      dsimp only
      cases Artifact.compile bytes with
      | error e => exact ⟨rfl, hc⟩
      | ok a =>
        dsimp only
        cases a.checkEntry function with
        | error e => exact ⟨rfl, hc⟩
        | ok _ =>
          refine ⟨rfl, ?_⟩
          show (w'.keep id a).cache = w.cache.put id a
          rw [keep_cache, hc]

theorem lookUp_eq (w : World) (id : ContractId) : ∃ w', w.lookUp id = (w.cache.peek id, w') ∧
    w'.service = w.service ∧ ∀ id', w'.cache.peek id' = w.cache.peek id' := by
  have hn : (w.noteIf w.cache.reports
      (.cacheLookup id (w.cache.get id).1.isSome)).service = w.service := by
    cases w.cache.reports <;> rfl
  exact ⟨_, rfl, hn, fun id' => w.cache.peek_get id id'⟩

variable {validator : Option Validator} {w : World}

theorem load_fst (hw : w.Faithful validator) (id : ContractId) (function : String)
    {cancel : Cancellation} (hc : cancel.Misses (1 + w.service.delay .getContractBytes)) :
    (w.load validator id function cancel).1.map (fun l => l.1.artifact) =
      if cancel = some 0 then .error (.cancelled .acquisition)
      else w.service.acquire validator id function := by
  obtain ⟨v, hlook, hservice, -⟩ := w.lookUp_eq id
  unfold load
  rw [hlook]
  cases hp : w.cache.peek id with
  | some a =>
    dsimp only
    rw [Stage.race_fst, Stage.settle_map (fun n _ => n.eq_zero_or_pos) Loaded.artifact]
    unfold Service.acquire
    rw [hw id a hp]
    dsimp only
    cases a.checkEntry function <;> rfl
  | none =>
    have hcold := (v.loadCold_eq validator id function).1
    rw [hservice] at hcold
    dsimp only
    rw [Stage.race_fst, Stage.settle_map hc Loaded.artifact, ← hcold]
    rcases v.loadCold validator id function with ⟨e | a, v'⟩ <;> rfl

structure LoadsFaithfully (validator : Option Validator) (named : ContractId → Prop) (w : World)
    (r : Except CallError Loaded) (v : World) : Prop where
  loaded : ∀ l, r = .ok l → ∃ id, named id ∧ w.service.artifact validator id = .ok l.artifact
  cached : ∀ id a, v.cache.peek id = some a → w.cache.peek id = some a ∨
    named id ∧ w.service.artifact validator id = .ok a ∧ ∃ l, r = .ok l

section LoadsFaithfully

variable {named : ContractId → Prop} {v : World} {r : Except CallError Loaded}

theorem LoadsFaithfully.of_error (e : CallError)
    (h : ∀ id, v.cache.peek id = w.cache.peek id) :
    w.LoadsFaithfully validator named (.error e) v where
  loaded l hl := by cases hl
  cached id a ha := .inl ((h id).symm.trans ha)

theorem LoadsFaithfully.faithful (h : w.LoadsFaithfully validator named r v)
    (hw : w.Faithful validator) (hs : v.service = w.service) : v.Faithful validator := by
  intro id a ha
  rw [hs]
  obtain ha | ⟨-, ha, -⟩ := h.cached id a ha
  · exact hw id a ha
  · exact ha

end LoadsFaithfully

theorem load_faithfully (hw : w.Faithful validator) (id : ContractId) (function : String)
    (cancel : Cancellation) :
    w.LoadsFaithfully validator (· = id) ((w.load validator id function cancel).1.map Prod.fst)
      (w.load validator id function cancel).2 := by
  obtain ⟨v, hlook, hservice, hpeek⟩ := w.lookUp_eq id
  unfold load
  rw [hlook]
  cases hp : w.cache.peek id with
  | some a =>
    refine Stage.race_elim (.of_error _ fun _ => rfl) (.of_error _ hpeek) ?_
    dsimp only
    cases a.checkEntry function with
    | error e => exact .of_error e hpeek
    | ok u =>
      refine ⟨fun l hl => ?_, fun id' b hb => .inl ((hpeek id').symm.trans hb)⟩
      cases hl
      exact ⟨id, rfl, hw id a hp⟩
  | none =>
    obtain ⟨hcold, hcache⟩ := v.loadCold_eq validator id function
    rw [hservice] at hcold hcache
    refine Stage.race_elim (.of_error _ fun _ => rfl) (.of_error _ hpeek) ?_
    rcases hl : v.loadCold validator id function with ⟨e | a, v'⟩
    · rw [hl] at hcold hcache
      rw [← hcold] at hcache
      refine .of_error e fun id' => ?_
      rw [show v'.cache = v.cache from hcache]
      exact hpeek id'
    · rw [hl] at hcold hcache
      rw [← hcold] at hcache
      have ha := Service.acquire_eq_ok hcold.symm
      refine ⟨fun l hl => ?_, fun id' b hb => ?_⟩
      · cases hl
        exact ⟨id, rfl, ha⟩
      · rw [show v'.cache = v.cache.put id a from hcache] at hb
        obtain ⟨rfl, rfl⟩ | hb := ArtifactCache.peek_put hb
        · exact .inr ⟨rfl, ha, _, rfl⟩
        · exact .inl ((hpeek id').symm.trans hb)

theorem load_cacheHit {id : ContractId} {function : String} {cancel cancel' : Cancellation}
    {a : Loaded} (h : (w.load validator id function cancel).1 = .ok (a, cancel')) :
    a.cacheHit = (w.cache.peek id).isSome := by
  obtain ⟨v, hlook, -, -⟩ := w.lookUp_eq id
  suffices hit : ∀ b : Loaded, (w.load validator id function cancel).1.map Prod.fst = .ok b →
      b.cacheHit = (w.cache.peek id).isSome from hit a (by rw [h]; rfl)
  unfold load
  rw [hlook]
  cases hp : w.cache.peek id with
  | some found =>
    refine Stage.race_elim (P := fun r _ => ∀ b : Loaded, r = .ok b → b.cacheHit = true)
      nofun nofun ?_
    dsimp only
    cases found.checkEntry function with
    | error e => exact nofun
    | ok _ =>
      rintro _ ⟨⟩
      rfl
  | none =>
    refine Stage.race_elim (P := fun r _ => ∀ b : Loaded, r = .ok b → b.cacheHit = false)
      nofun nofun ?_
    rcases v.loadCold validator id function with ⟨e | found, v'⟩
    · exact nofun
    · rintro _ ⟨⟩
      rfl

end World

namespace Call

variable {call : Call} {cancel : Cancellation} {w w' : World}

theorem resolve_eq_ok {id : ContractId} {cancel' : Cancellation}
    (h : call.resolve cancel w = (.ok (id, cancel'), w')) :
    w.service.contractOf call.contract = .ok id ∧
      cancel' = cancel.map (· - (1 + w.service.delay .getAccountContract)) := by
  have hf := call.resolve_fst cancel w
  rw [h] at hf
  unfold Stage.settle at hf
  split at hf
  · cases hf
  · cases hc : w.service.contractOf call.contract with
    | error e =>
      rw [hc] at hf
      cases hf
    | ok id' =>
      rw [hc] at hf
      cases hf
      exact ⟨rfl, rfl⟩

end Call

def Service.SparesLoading (s : Service) (cancel : Cancellation) : Prop :=
  ∀ polls, cancel = some polls → polls ≤ 1 + s.delay .getAccountContract ∨
    1 + s.delay .getAccountContract + s.delay .getContractBytes < polls

namespace Platform

variable {p q : Platform} {cancel : Cancellation} {call : Call} {u v w : World}

theorem prepare_faithfully (hw : w.Faithful p.validator) (cancel : Cancellation) (call : Call) :
    w.LoadsFaithfully p.validator (fun id => w.service.contractOf call.contract = .ok id)
      (p.prepare cancel call w).1 (p.prepare cancel call w).2 := by
  obtain ⟨journal, hj⟩ := call.resolve_snd cancel w
  rw [prepare_eq]
  rcases hr : call.resolve cancel w with ⟨e | ⟨id, cancel'⟩, w'⟩
  · rw [hr] at hj
    exact .of_error e fun id => by rw [show w' = _ from hj]
  · rw [hr] at hj
    obtain rfl : w' = { w with journal } := hj
    have hid := (Call.resolve_eq_ok hr).1
    have hload := World.load_faithfully (w := { w with journal }) hw id call.function cancel'
    dsimp only
    rcases hl : World.load { w with journal } p.validator id call.function cancel' with
      ⟨e | ⟨l, _⟩, v⟩
    · rw [hl] at hload
      refine ⟨nofun, fun id' a ha => (hload.cached id' a ha).imp_right ?_⟩
      rintro ⟨-, -, l, hl⟩
      cases hl
    · rw [hl] at hload
      refine ⟨fun l hl => ?_, fun id' a ha => (hload.cached id' a ha).imp_right ?_⟩
      · cases hl
        obtain ⟨_, rfl, ha⟩ := hload.loaded _ rfl
        exact ⟨_, hid, ha⟩
      · rintro ⟨rfl, ha, -⟩
        exact ⟨hid, ha, _, rfl⟩

theorem prepare_service (p : Platform) (cancel : Cancellation) (call : Call) (w : World) :
    (p.prepare cancel call w).2.service = w.service := by
  obtain ⟨cache, journal, h⟩ := p.loads_prepare cancel call w
  rw [h]

theorem prepare_loaded (p : Platform) (call : Call) {id : ContractId} {cancel' : Cancellation}
    (h : call.resolve cancel w = (.ok (id, cancel'), v)) :
    (p.prepare cancel call w).1.map Loaded.artifact =
      (v.load p.validator id call.function cancel').1.map fun l => l.1.artifact := by
  rw [prepare_eq, h]
  dsimp only
  rcases v.load p.validator id call.function cancel' with ⟨e | ⟨l, _⟩, _⟩ <;> rfl

theorem prepare_artifact_eq (call : Call) (hpq : p.validator = q.validator)
    (hs : u.service = v.service) (hu : u.Faithful p.validator) (hv : v.Faithful q.validator)
    (hc : u.service.SparesLoading cancel) :
    (p.prepare cancel call u).1.map Loaded.artifact =
      (q.prepare cancel call v).1.map Loaded.artifact := by
  have hfst : (call.resolve cancel u).1 = (call.resolve cancel v).1 := by
    rw [call.resolve_fst, call.resolve_fst, hs]
  obtain ⟨journal, hj⟩ := call.resolve_snd cancel u
  obtain ⟨journal', hj'⟩ := call.resolve_snd cancel v
  rcases hr : call.resolve cancel u with ⟨e | ⟨id, cancel'⟩, u'⟩
  · rw [hr] at hfst
    rcases hr' : call.resolve cancel v with ⟨r, v'⟩
    rw [hr'] at hfst
    obtain rfl : r = _ := hfst.symm
    rw [prepare_eq, prepare_eq, hr, hr']
  · rw [hr] at hfst hj
    rcases hr' : call.resolve cancel v with ⟨r, v'⟩
    rw [hr'] at hfst hj'
    obtain rfl : r = _ := hfst.symm
    obtain rfl : u' = { u with journal } := hj
    obtain rfl : v' = { v with journal := journal' } := hj'
    have hc' : cancel'.Misses (1 + u.service.delay .getContractBytes) := by
      intro polls hpolls
      rw [(Call.resolve_eq_ok hr).2] at hpolls
      obtain ⟨n, hn, rfl⟩ := Option.map_eq_some_iff.mp hpolls
      have hspared := hc n hn
      omega
    rw [p.prepare_loaded call hr, q.prepare_loaded call hr',
      World.load_fst (w := { u with journal }) hu id call.function hc',
      World.load_fst (w := { v with journal := journal' }) hv id call.function (hs ▸ hc')]
    show (if _ then _ else u.service.acquire _ _ _) = if _ then _ else v.service.acquire _ _ _
    rw [hs, hpq]

end Platform

end MeteredContracts
