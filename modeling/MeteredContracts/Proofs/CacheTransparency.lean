import Mathlib.Logic.Relation
import MeteredContracts.Proofs.Twins

namespace MeteredContracts

namespace Frame

variable {p : Platform} {root fr : Frame}

def LoadsName (p : Platform) (fr : Frame) (id : ContractId) : Prop :=
  fr.world.service.contractOf fr.call.contract = .ok id ∧ ∃ a w, fr.loaded p = (.ok a, w)

def TreeLoadsName (p : Platform) (root : Frame) (id : ContractId) : Prop :=
  ∃ fr, Relation.ReflTransGen (Nests p) root fr ∧ fr.LoadsName p id

end Frame

def World.Caches (validator : Option Validator) (loaded : ContractId → Prop) (u v : World) : Prop :=
  u.Faithful validator → v.Faithful validator ∧
    ∀ id a, v.cache.peek id = some a → (∃ b, u.cache.peek id = some b) ∨ loaded id

namespace World

variable {validator : Option Validator} {loaded : ContractId → Prop}

theorem Caches.of_eq {u v : World} (hs : ∀ id, v.service.artifact validator id =
    u.service.artifact validator id) (hc : v.cache = u.cache) : u.Caches validator loaded v := by
  refine fun hu => ⟨fun id a ha => ?_, fun id a ha => .inl ⟨a, hc ▸ ha⟩⟩
  rw [hs]
  exact hu id a (hc ▸ ha)

theorem caches_allows (validator : Option Validator) (loaded : ContractId → Prop) :
    AllowsFrames (Caches validator loaded) where
  refl w := .of_eq (fun _ => rfl) rfl
  trans := by
    intro u v w huv hvw hu
    obtain ⟨hv, huv⟩ := huv hu
    obtain ⟨hw, hvw⟩ := hvw hv
    refine ⟨hw, fun id a ha => ?_⟩
    obtain ⟨b, hb⟩ | hid := hvw id a ha
    · exact huv id b hb
    · exact .inr hid
  note w e := .of_eq (fun _ => rfl) rfl
  clock w clock := .of_eq (fun _ => rfl) rfl
  ask w id call r _ hr := .of_eq (w.service.artifact_ask hr validator) rfl
  name w := .of_eq (fun _ => rfl) rfl
  serve := by
    intro u v w call fuel cacheHit _ huv hvw hu
    obtain ⟨hv, huv⟩ := huv hu
    obtain ⟨hw, hvw⟩ := hvw hv
    refine ⟨hw, fun id a ha => ?_⟩
    obtain ⟨b, hb⟩ | hid := hvw id a ha
    · exact huv id b hb
    · exact .inr hid

theorem code_allows :
    AllowsFrames fun u v => v.service.ledger.code = u.service.ledger.code where
  refl _ := rfl
  trans h h' := h'.trans h
  note _ _ := rfl
  clock _ _ := rfl
  ask w _ _ _ _ hr := (Service.ask_of_guest hr w.service).2.2
  name _ := rfl
  serve _ h h' := h'.trans h

end World

namespace Frame

variable {p : Platform} {root fr : Frame}

theorem run_caches (ht : Relation.ReflTransGen (Nests p) root fr) :
    fr.world.Caches p.validator (root.TreeLoadsName p) (p.run fr).2 := by
  refine (World.caches_allows p.validator (root.TreeLoadsName p)).run_where
    (fun ht hn => ht.tail hn) (fun fr ht hw => ?_) fr ht
  have hload := Platform.prepare_faithfully hw fr.cancel fr.call
  refine ⟨hload.faithful hw (p.prepare_service _ _ _), fun id a ha => ?_⟩
  obtain ha | ⟨hid, -, l, hl⟩ := hload.cached id a ha
  · exact .inl ⟨a, ha⟩
  · exact .inr ⟨fr, ht, hid, l, _, Prod.ext hl rfl⟩

theorem run_code (p : Platform) (fr : Frame) :
    (p.run fr).2.service.ledger.code = fr.world.service.ledger.code :=
  World.code_allows.run_all (fun fr => by rw [loaded, Platform.prepare_service]) fr

end Frame

inductive Act
  | call (cancel : Cancellation) (call : Call)
  | change (service : Service)

structure View where
  outcome : Option Outcome
  service : Service
  calls : UInt64
  fuelUsed : UInt64

namespace Platform

def act (p : Platform) : Act → World → Option Outcome × World
  | .call cancel call, w => (some (p.execute cancel call w).1, (p.execute cancel call w).2)
  | .change service, w => (none, { w with service })

def watch (p : Platform) : List Act → World → List View × World
  | [], w => ([], w)
  | act :: acts, w =>
    let (outcome, w) := p.act act w
    let (views, w') := p.watch acts w
    (⟨outcome, w.service, w.statistics.calls, w.statistics.fuelUsed⟩ :: views, w')

/-- Two platforms go through the same acts, and no bytes change in the ledger that either has
loaded, under the names that are `loaded` or later on. -/
def Steady (p q : Platform) (loaded : ContractId → Prop) : List Act → World → World → Prop
  | [], _, _ => True
  | .call cancel call :: acts, u, v =>
    p.Steady q (fun id => loaded id ∨ (p.root cancel call u).TreeLoadsName p id ∨
      (q.root cancel call v).TreeLoadsName q id) acts
      (p.execute cancel call u).2 (q.execute cancel call v).2
  | .change service :: acts, u, v =>
    (∀ id, loaded id → service.ledger.contractBytes id = u.service.ledger.contractBytes id) ∧
      p.Steady q loaded acts { u with service } { v with service }

/-- Nothing comes between a platform and the bytes in its ledger in the course of some acts: no call
is cancelled while these are waited for, and whenever they could be asked for they still can. -/
def Undisturbed (p : Platform) : List Act → World → Prop
  | [], _ => True
  | .call cancel call :: acts, w =>
    w.service.SparesLoading cancel ∧ p.Undisturbed acts (p.execute cancel call w).2
  | .change service :: acts, w =>
    (service.outages.get? .getContractBytes = none ∨
      service.outages.get? .getContractBytes = w.service.outages.get? .getContractBytes) ∧
      p.Undisturbed acts { w with service }

def IsCurrent (p : Platform) (w : World) : Prop :=
  ∀ cancel call a w', p.prepare cancel call w = (.ok a, w') →
    ∃ id bytes, (w.service.ask (.getAccountContract call.contract)).1 = .ok id ∧
      (w.service.ask (.getContractBytes id)).1 = .ok bytes ∧
      Artifact.compile bytes = .ok a.artifact

variable {p q : Platform} {u v w : World}

theorem isCurrent_of_faithful (hw : w.Faithful p.validator) : p.IsCurrent w := by
  intro cancel call a w' h
  obtain ⟨id, hid, ha⟩ := (prepare_faithfully hw cancel call).loaded a (congrArg Prod.fst h)
  obtain ⟨bytes, hbytes, hcompile⟩ := Service.artifact_eq_ok ha
  refine ⟨id, bytes, ?_, hbytes, hcompile⟩
  unfold Service.contractOf at hid
  cases hc : (w.service.ask (.getAccountContract call.contract)).1 with
  | error e =>
    rw [hc] at hid
    cases hid
  | ok id' =>
    rw [hc] at hid
    cases hid
    rfl

theorem faithful_change {validator : Option Validator} (hw : w.Faithful validator)
    {service : Service} (hstored : ∀ id a, w.cache.peek id = some a →
      service.ledger.contractBytes id = w.service.ledger.contractBytes id)
    (hasked : service.outages.get? .getContractBytes = none ∨
      service.outages.get? .getContractBytes = w.service.outages.get? .getContractBytes) :
    ({ w with service } : World).Faithful validator :=
  fun id a ha => Service.artifact_of_stored (hw id a ha) (hstored id a ha) hasked

theorem steady_of_code (p q : Platform) {code : Table ContractId Bytes} {acts : List Act}
    (loaded : ContractId → Prop) (hu : u.service.ledger.code = code)
    (hcode : ∀ service, .change service ∈ acts → service.ledger.code = code) :
    p.Steady q loaded acts u v := by
  induction acts generalizing u v loaded with
  | nil => trivial
  | cons act acts ih =>
    have hrest : ∀ service, .change service ∈ acts → service.ledger.code = code :=
      fun service hs => hcode service (List.mem_cons_of_mem _ hs)
    cases act with
    | call cancel call =>
      have hcall := Frame.run_code p (p.root cancel call u)
      exact ih _ (hcall.trans hu) hrest
    | change service =>
      have hservice := hcode service List.mem_cons_self
      refine ⟨fun id _ => ?_, ih loaded hservice hrest⟩
      unfold Ledger.contractBytes
      rw [hservice, hu]

def CachedWithin (w : World) (loaded : ContractId → Prop) : Prop :=
  ∀ id a, w.cache.peek id = some a → loaded id

theorem execute_cachedWithin {loaded : ContractId → Prop} (hw : w.Faithful p.validator)
    (hc : CachedWithin w loaded) (cancel : Cancellation) (call : Call) :
    CachedWithin (p.execute cancel call w).2
      fun id => loaded id ∨ (p.root cancel call w).TreeLoadsName p id := by
  have hroot : Relation.ReflTransGen (Frame.Nests p) (p.root cancel call w)
    (p.root cancel call w) := .refl
  intro id a ha
  obtain ⟨b, hb⟩ | hid := (Frame.run_caches hroot hw).2 id a ha
  · exact .inl (hc id b hb)
  · exact .inr hid

theorem watch_alike (hpq : p.Twins q) (acts : List Act) {loaded : ContractId → Prop}
    (huv : u.Alike p.validator v) (hu : CachedWithin u loaded) (hv : CachedWithin v loaded)
    (hs : p.Steady q loaded acts u v) (hd : p.Undisturbed acts u) :
    (p.watch acts u).1 = (q.watch acts v).1 ∧
      (p.watch acts u).2.Alike p.validator (q.watch acts v).2 := by
  -- what is cached has been loaded, and so it is none of the bytes that an act can change
  induction acts generalizing u v loaded with
  | nil => exact ⟨rfl, huv⟩
  | cons act acts ih =>
    cases act with
    | call cancel call =>
      obtain ⟨hc, hd⟩ := hd
      obtain ⟨houtcome, halike⟩ := execute_alike hpq huv call hc
      have hu' := execute_cachedWithin huv.left hu cancel call
      have hv' := execute_cachedWithin (p := q) (hpq.validator ▸ huv.right) hv cancel call
      obtain ⟨hviews, hend⟩ := ih halike (fun id a ha => (hu' id a ha).imp_right .inl)
        (fun id a ha => (hv' id a ha).imp_right .inr) hs hd
      refine ⟨?_, hend⟩
      unfold watch act
      dsimp only
      rw [houtcome, halike.service, halike.calls, halike.fuelUsed, hviews]
    | change service =>
      obtain ⟨hstored, hs⟩ := hs
      obtain ⟨hasked, hd⟩ := hd
      have halike : ({ u with service } : World).Alike p.validator { v with service } :=
        { huv with
          service := rfl
          left := faithful_change huv.left (fun id a ha => hstored id (hu id a ha)) hasked
          right := faithful_change huv.right
            (fun id a ha => huv.service ▸ hstored id (hv id a ha)) (huv.service ▸ hasked) }
      obtain ⟨hviews, hend⟩ := ih halike hu hv hs hd
      refine ⟨?_, hend⟩
      unfold watch act
      dsimp only
      rw [huv.calls, huv.fuelUsed, hviews]

end Platform

theorem Blueprint.build_eq_ok {config : Config} {validator : Option Validator} {engine : Engine}
    {p : Platform} {cache : ArtifactCache}
    (h : build ⟨config, validator, none, engine⟩ = .ok (p, cache)) :
    p = ⟨config, validator <|> builtInValidator config.validation, engine⟩ ∧
      cache = .bounded { budget := config.cache.maxBytes.toNat } := by
  unfold build at h
  cases hc : config.check with
  | error e =>
    simp only [hc] at h
    cases h
  | ok _ =>
    simp only [hc] at h
    cases h
    exact ⟨rfl, rfl⟩

/-- Two platforms with the same settings but for the budgets of their caches answer all calls in the
same way, and leave the same ledger and the same counts; and each call runs what its account is
bound to by then. -/
theorem Platform.caching_is_transparent {config : Config} {validator : Option Validator}
    {engine : Engine} {budget : UInt64} {p q : Platform} {c d : ArtifactCache}
    (hp : Blueprint.build ⟨config, validator, none, engine⟩ = .ok (p, c))
    (hq : Blueprint.build ⟨{ config with cache.maxBytes := budget }, validator, none, engine⟩ =
      .ok (q, d))
    (htimeless : config.engine.epochInterruption = false) (service : Service) (now now' : Clock)
    (acts : List Act)
    (hsteady : p.Steady q (fun _ => False) acts { service, cache := c, clock := now }
      { service, cache := d, clock := now' })
    (hundisturbed : p.Undisturbed acts { service, cache := c, clock := now }) :
    (p.watch acts { service, cache := c, clock := now }).1 =
        (q.watch acts { service, cache := d, clock := now' }).1 ∧
      p.IsCurrent (p.watch acts { service, cache := c, clock := now }).2 ∧
      q.IsCurrent (q.watch acts { service, cache := d, clock := now' }).2 := by
  obtain ⟨rfl, rfl⟩ := Blueprint.build_eq_ok hp
  obtain ⟨rfl, rfl⟩ := Blueprint.build_eq_ok hq
  have hpq : Platform.Twins
      ⟨config, validator <|> Blueprint.builtInValidator config.validation, engine⟩
      ⟨{ config with cache.maxBytes := budget },
        validator <|> Blueprint.builtInValidator config.validation, engine⟩ :=
    ⟨rfl, rfl, rfl, rfl, htimeless⟩
  have huv : World.Alike (validator <|> Blueprint.builtInValidator config.validation)
      { service, cache := .bounded { budget := config.cache.maxBytes.toNat }, clock := now }
      { service, cache := .bounded { budget := budget.toNat }, clock := now' } :=
    ⟨rfl, rfl, rfl, rfl, rfl, nofun, nofun⟩
  obtain ⟨hviews, hend⟩ := watch_alike hpq acts huv nofun nofun hsteady hundisturbed
  exact ⟨hviews, isCurrent_of_faithful hend.left, isCurrent_of_faithful hend.right⟩

def Wasm.passThrough : Bytes :=
  [0, 97, 115, 109, 1, 0, 0, 0, 1, 5, 1, 96, 1, 127, 0, 2, 5, 1, 0, 0, 0, 0, 7, 4, 1, 0, 0, 0]

def Service.offering (bytes : Bytes) : Service where
  ledger :=
    { accounts := Table.empty.insert .zero ⟨[]⟩
      code := (Table.empty.insert ⟨[]⟩ bytes).insert ⟨[0]⟩ bytes }

def Service.rebound (bytes : Bytes) : Service where
  ledger :=
    { accounts := Table.empty.insert .zero ⟨[0]⟩
      code := (Table.empty.insert ⟨[]⟩ bytes).insert ⟨[0]⟩ bytes }

theorem Platform.caching_is_transparent_to_rebinding :
    let config : Config := { engine.epochInterruption := false }
    let p : Platform := ⟨config, none, {}⟩
    let q : Platform := ⟨{ config with cache.maxBytes := 0 }, none, {}⟩
    let service := Service.offering Wasm.passThrough
    let acts := [.call none {}, .change (.rebound Wasm.passThrough), .call none {}]
    let cached := p.watch acts { service, cache := .bounded { budget := 67108864 } }
    let uncached := q.watch acts { service, cache := .bounded { budget := 0 } }
    cached.1 = uncached.1 ∧
      ∀ id ∈ [⟨[]⟩, ⟨[0]⟩],
        (cached.2.cache.peek id).isSome ∧ (uncached.2.cache.peek id).isNone := by
  intro config p q service acts cached uncached
  have hp : Blueprint.build ⟨config, none, none, {}⟩ =
    .ok (p, .bounded { budget := 67108864 }) := rfl
  have hq : Blueprint.build ⟨{ config with cache.maxBytes := 0 }, none, none, {}⟩ =
    .ok (q, .bounded { budget := 0 }) := rfl
  have hsteady : p.Steady q (fun _ => False) acts
      { service, cache := .bounded { budget := 67108864 } }
      { service, cache := .bounded { budget := 0 } } := by
    apply p.steady_of_code q _ rfl
    intro s hs
    simp only [acts, List.mem_cons, List.not_mem_nil, reduceCtorEq, Act.change.injEq, or_false,
      false_or] at hs
    rw [hs]
    rfl
  obtain ⟨hviews, -⟩ := caching_is_transparent hp hq rfl service {} {} acts hsteady
    ⟨nofun, .inl rfl, nofun, trivial⟩
  exact ⟨hviews, by decide +kernel⟩

def Platform.Hides (these : List Act → Prop) : Prop :=
  ∀ (config : Config) (validator : Option Validator) (budget : UInt64) (p q : Platform)
    (c d : ArtifactCache) (service : Service) (acts : List Act),
    Blueprint.build ⟨config, validator, none, {}⟩ = .ok (p, c) →
    Blueprint.build ⟨{ config with cache.maxBytes := budget }, validator, none, {}⟩ = .ok (q, d) →
    config.engine.epochInterruption = false → these acts →
    p.Steady q (fun _ => False) acts { service, cache := c } { service, cache := d } →
    (p.watch acts { service, cache := c }).1 = (q.watch acts { service, cache := d }).1

/-- The budget of a cache can show where calls are cancelled, even if nothing changes between them;
and it can show where the ledger falls silent, even if no call is cancelled. -/
theorem Platform.caching_shows_when_disturbed :
    ¬Hides (fun acts => ∀ act ∈ acts, ∃ cancel call, act = .call cancel call) ∧
      ¬Hides fun acts => ∀ cancel call, .call cancel call ∈ acts → cancel = none := by
  have hp : Blueprint.build ⟨{ engine.epochInterruption := false }, none, none, {}⟩ =
    .ok (⟨{ engine.epochInterruption := false }, none, {}⟩, .bounded { budget := 67108864 }) := rfl
  have hq : Blueprint.build
      ⟨{ engine.epochInterruption := false, cache.maxBytes := 0 }, none, none, {}⟩ =
    .ok (⟨{ engine.epochInterruption := false, cache.maxBytes := 0 }, none, {}⟩,
      .bounded { budget := 0 }) := rfl
  constructor
  · intro h
    have hviews := h _ none 0 _ _ _ _
      { Service.offering Wasm.passThrough with delays := Table.empty.insert .getContractBytes 1 }
      [.call none {}, .call (some 2) {}] hp hq rfl (by simp) (steady_of_code _ _ _ rfl (by simp))
    have hseen := congrArg (List.map fun v =>
      v.outcome.any fun o => o.output matches .error (.cancelled _)) hviews
    revert hseen
    decide +kernel
  · intro h
    have hviews := h _ none 0 _ _ _ _ (.offering Wasm.passThrough)
      [.call none {}, .change { Service.offering Wasm.passThrough with
        outages := Table.empty.insert .getContractBytes "down" }, .call none {}] hp hq rfl (by simp)
      (steady_of_code _ _ _ rfl (by simp))
    have hseen := congrArg (List.map fun v =>
      v.outcome.any fun o => o.output matches .error (.byteRetrieval ..)) hviews
    revert hseen
    decide +kernel

end MeteredContracts
