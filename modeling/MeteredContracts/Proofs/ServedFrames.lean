import Mathlib.Data.List.Basic
import MeteredContracts.Proofs.CallStack
import MeteredContracts.Proofs.Caching

namespace MeteredContracts

namespace Frame

def isCached (fr : Frame) : Bool :=
  match fr.world.service.contractOf fr.call.contract with
  | .ok id => (fr.world.cache.peek id).isSome
  | .error _ => false

variable (p : Platform) (fr : Frame)

def nested : List Frame :=
  match fr.session? p with
  | none => []
  | some ss =>
    (ss.sandbox.placingCalls fr.call.payload ss.world ++
      ss.sandbox.servingCalls fr.call.function fr.call.payload ss.world).filterMap
        (·.frame? fr.levels)

def itself : List Frame := if (fr.session? p).isSome then [fr] else []

def servedWithin : Nat → Frame → List Frame
  | 0, fr => fr.itself p
  | levels + 1, fr => (fr.nested p).flatMap (servedWithin levels) ++ fr.itself p

def served : List Frame := servedWithin p fr.levels fr

def recorded (s : Statistics) (fr : Frame) : Statistics :=
  s.record (p.run fr).1.fuelUsed 0 fr.isCached

variable {p fr} {fr' : Frame} {ss : Session} {h : HostCall}

theorem loaded_cacheHit {a : Loaded} {w : World} (hl : fr.loaded p = (.ok a, w)) :
    a.cacheHit = fr.isCached := by
  obtain ⟨journal, hj⟩ := fr.call.resolve_snd fr.cancel fr.world
  rw [loaded, Platform.prepare_eq] at hl
  rcases hr : fr.call.resolve fr.cancel fr.world with ⟨e | ⟨id, cancel⟩, v⟩
  · rw [hr] at hl
    cases hl
  · rw [hr] at hl hj
    dsimp only at hl hj
    rw [isCached, (Call.resolve_eq_ok hr).1]
    split at hl
    next => cases hl
    next a' cancel' w' hload =>
      cases hl
      rw [World.load_cacheHit (congrArg Prod.fst hload), hj]

theorem session_cacheHit (hs : fr.session? p = some ss) : ss.cacheHit = fr.isCached := by
  obtain ⟨a, w, s, s', w', hl, -, -, rfl⟩ := session?_eq_some hs
  exact loaded_cacheHit hl

theorem mem_nested : fr' ∈ fr.nested p ↔ fr.Nests p fr' := by
  unfold nested Nests
  simp only [makes_iff, Serves]
  cases hs : fr.session? p with
  | none => simp
  | some ss => simp only [List.mem_filterMap, Sandbox.mem_callsInvoked, Option.some.injEq,
      exists_eq_left']

theorem Nests.levels_eq (hn : fr.Nests p fr') : fr'.levels + 1 = fr.levels := by
  obtain ⟨h, hm⟩ := hn
  cases hm with
  | intro hl => exact hl.symm

theorem served_eq (p : Platform) (fr : Frame) :
    fr.served p = (fr.nested p).flatMap (·.served p) ++ fr.itself p := by
  have hbelow : (fr.nested p).flatMap (·.served p) =
      (fr.nested p).flatMap (servedWithin p (fr.levels - 1)) := by
    refine List.flatMap_congr fun fr' hn => ?_
    rw [served, ← (mem_nested.mp hn).levels_eq, Nat.add_sub_cancel]
  rw [hbelow, served]
  cases hl : fr.levels with
  | zero =>
    -- at the deepest level nothing is nested
    have hnone : fr.nested p = [] := List.eq_nil_iff_forall_not_mem.mpr fun fr' hn => by
      have hlevels := (mem_nested.mp hn).levels_eq
      omega
    rw [hnone]
    rfl
  | succ levels => rfl

theorem mem_itself : fr' ∈ fr.itself p ↔ fr' = fr ∧ (fr.session? p).isSome := by
  unfold itself
  split <;> simp_all

theorem mem_served {root : Frame} : fr ∈ root.served p ↔
    Relation.ReflTransGen (Nests p) root fr ∧ (fr.session? p).isSome := by
  induction root using of_nested (p := p) with
  | step root ih =>
    rw [served_eq, List.mem_append, List.mem_flatMap, mem_itself,
      Relation.ReflTransGen.cases_head_iff]
    constructor
    · rintro (⟨fr', hn, hfr⟩ | ⟨rfl, hs⟩)
      · have hn := mem_nested.mp hn
        obtain ⟨ht, hs⟩ := (ih fr' hn).mp hfr
        exact ⟨.inr ⟨fr', hn, ht⟩, hs⟩
      · exact ⟨.inl rfl, hs⟩
    · rintro ⟨rfl | ⟨fr', hn, ht⟩, hs⟩
      · exact .inr ⟨rfl, hs⟩
      · exact .inl ⟨fr', mem_nested.mpr hn, (ih fr' hn).mpr ⟨ht, hs⟩⟩

end Frame

namespace World

/-- A stretch of time in which some frames are served, and end in this order. Each of them is named
by its sandbox, and no name is given twice. -/
structure Recounts (p : Platform) (l : List Frame) (u v : World) : Prop where
  statistics : v.statistics = l.foldl (Frame.recorded p) u.statistics
  names : u.nextSandbox ≤ v.nextSandbox
  named : ∀ fr ∈ l, u.nextSandbox ≤ fr.world.nextSandbox ∧ fr.world.nextSandbox < v.nextSandbox
  distinct : l.Pairwise fun fr fr' => fr.world.nextSandbox ≠ fr'.world.nextSandbox

namespace Recounts

variable {p : Platform} {l l' : List Frame} {u v w : World}

theorem of_eq (hs : v.statistics = u.statistics) (hn : u.nextSandbox ≤ v.nextSandbox) :
    u.Recounts p [] v := ⟨hs, hn, nofun, .nil⟩

theorem trans (h : u.Recounts p l v) (h' : v.Recounts p l' w) : u.Recounts p (l ++ l') w where
  statistics := by rw [h'.statistics, h.statistics, List.foldl_append]
  names := Nat.le_trans h.names h'.names
  named fr hfr := by
    obtain hfr | hfr := List.mem_append.mp hfr
    · exact (h.named fr hfr).imp_right fun hlt => Nat.lt_of_lt_of_le hlt h'.names
    · exact (h'.named fr hfr).imp_left (Nat.le_trans h.names)
  distinct := by
    refine List.pairwise_append.mpr ⟨h.distinct, h'.distinct, fun fr hfr fr' hfr' => ?_⟩
    exact Nat.ne_of_lt (Nat.lt_of_lt_of_le (h.named fr hfr).2 (h'.named fr' hfr').1)

theorem serve {fr : Frame} (h : World.Recounts p l
      { fr.world with nextSandbox := fr.world.nextSandbox + 1 } v)
    (hs : w.statistics = fr.recorded p v.statistics) (hn : w.nextSandbox = v.nextSandbox) :
    fr.world.Recounts p (l ++ [fr]) w where
  statistics := by
    rw [List.foldl_append, ← h.statistics]
    exact hs
  names := hn ▸ Nat.le_of_succ_le h.names
  named fr' hfr' := by
    rw [hn]
    obtain hfr' | hfr' := List.mem_append.mp hfr'
    · exact (h.named fr' hfr').imp_left Nat.le_of_succ_le
    · obtain rfl := List.mem_singleton.mp hfr'
      exact ⟨Nat.le_refl _, h.names⟩
  distinct := by
    refine List.pairwise_append.mpr
      ⟨h.distinct, List.pairwise_singleton .., fun fr' hfr' _ ho => ?_⟩
    obtain rfl := List.mem_singleton.mp ho
    exact Nat.ne_of_gt (h.named fr' hfr').1

theorem nodup (h : u.Recounts p l v) : l.Nodup :=
  h.distinct.imp fun hne heq => hne (congrArg (·.world.nextSandbox) heq)

end Recounts

theorem recounts_allows (p : Platform) : World.Allows (Recounts p []) where
  refl _ := .of_eq rfl (Nat.le_refl _)
  trans := .trans
  note _ _ := .of_eq rfl (Nat.le_refl _)
  clock _ _ := .of_eq rfl (Nat.le_refl _)
  ask _ _ _ _ _ _ := .of_eq rfl (Nat.le_refl _)

theorem recounts_accumulates (p : Platform) :
    Turn.Accumulates fun l s t => s.world.Recounts p l t.world where
  guest h := (recounts_allows p).follows.guest h
  trans := .trans

end World

namespace Frame

variable {p : Platform} {fr : Frame} {ss : Session} {h : HostCall}

theorem run_recounts_of_unserved (hs : fr.session? p = none) :
    fr.world.Recounts p [] (p.run fr).2 := by
  have hload := fr.loads_loaded p
  have hc := p.course fr
  generalize p.run fr = r at hc ⊢
  cases hc with
  | unloaded hl =>
    rw [hl] at hload
    obtain ⟨cache, journal, rfl⟩ := hload
    exact .of_eq rfl (Nat.le_refl _)
  | unfit hl hf =>
    rw [hl] at hload
    obtain ⟨cache, journal, rfl⟩ := hload
    exact .of_eq rfl (Nat.le_succ _)
  | unstarted hl hf hb =>
    have hstart := started_keeps (World.recounts_allows p) hl hf
    rw [hb] at hstart
    rw [hl] at hload
    obtain ⟨cache, journal, rfl⟩ := hload
    exact .of_eq hstart.statistics (Nat.le_of_succ_le hstart.names)
  | served _ _ _ hs' _ _ =>
    rw [hs] at hs'
    cases hs'

theorem session_recounts (hs : fr.session? p = some ss) :
    World.Recounts p [] { fr.world with nextSandbox := fr.world.nextSandbox + 1 } ss.world := by
  -- the name of the frame's own sandbox is left out: only later ones are given from here on
  obtain ⟨a, u, v, hl, hstart, -, hworld⟩ := session_begins (World.recounts_allows p) hs
  have hload := fr.loads_loaded p
  rw [hl] at hload
  obtain ⟨cache, journal, rfl⟩ := hload
  rw [hworld]
  exact .of_eq hstart.statistics hstart.names

theorem Serves.run_recounts (hh : fr.Serves p h)
    (made : ∀ fr', fr.Nests p fr' → fr'.world.Recounts p (fr'.served p) (p.run fr').2) :
    h.scene.world.Recounts p ((h.frame? fr.levels).toList.flatMap (·.served p))
      h.run.2.world := by
  cases hfr : h.frame? fr.levels with
  | none =>
    apply Serves.run_keeps (World.recounts_allows p) hh
    intro fr' hm
    rw [(makes_iff.mp hm).2] at hfr
    cases hfr
  | some fr' =>
    have hm : fr.Makes p h fr' := makes_iff.mpr ⟨hh, hfr⟩
    have hsend := hm.sends (World.recounts_allows p)
    rw [hm.run_eq.2]
    simpa using hsend.trans (made fr' ⟨h, hm⟩)

theorem invoke_recounts (hs : fr.session? p = some ss)
    (made : ∀ fr', fr.Nests p fr' → fr'.world.Recounts p (fr'.served p) (p.run fr').2) :
    ss.world.Recounts p ((fr.nested p).flatMap (·.served p))
      (ss.sandbox.invoke fr.call.function fr.call.payload ss.world).2.2 := by
  have hinvoke := Sandbox.invoke_accumulates (World.recounts_accumulates p)
    (fun h => (h.frame? fr.levels).toList.flatMap (·.served p))
    (fun h hh => Serves.run_recounts ⟨ss, hs, hh⟩ made) fun _ => .of_eq rfl (Nat.le_refl _)
  rw [nested, hs]
  dsimp only
  rw [List.filterMap_eq_flatMap_toList, List.flatMap_assoc]
  exact hinvoke

theorem run_recounts (p : Platform) (fr : Frame) :
    fr.world.Recounts p (fr.served p) (p.run fr).2 := by
  -- over the tree: a frame ends after all that it nests, and is counted after them
  induction fr using of_nested (p := p) with
  | step fr ih =>
    rw [served_eq]
    cases hs : fr.session? p with
    | none =>
      have hnone : (fr.nested p).flatMap (·.served p) ++ fr.itself p = [] := by
        simp only [nested, itself, hs, List.flatMap_nil, Option.isSome_none, Bool.false_eq_true,
          if_false, List.append_nil]
      rw [hnone]
      exact run_recounts_of_unserved hs
    | some ss =>
      have hself : fr.itself p = [fr] := by
        simp only [itself, hs, Option.isSome_some, if_true]
      have hinvoke := (session_recounts hs).trans (invoke_recounts hs ih)
      rw [hself]
      refine hinvoke.serve ?_ ?_
      · rw [recorded, run_of_session hs, ← session_cacheHit hs, ss.finish_eq]
      · rw [run_of_session hs, ss.finish_eq]

end Frame

end MeteredContracts
