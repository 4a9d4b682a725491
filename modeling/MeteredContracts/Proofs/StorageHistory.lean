import MeteredContracts.Proofs.Nesting
import MeteredContracts.Proofs.StoredValues

/-!
The history of storage. All that the frames of a tree ask of their host, put in the order in which
it is asked, says what every account has stored under every key; and the host answers by it.
-/

namespace MeteredContracts

open Wasm (Cell)

structure Deed where
  frame : Frame
  call : HostCall

namespace Deed

def owner (d : Deed) : Address := d.frame.call.contract

def writes? (d : Deed) (a : Address) (key : Bytes) : Option (Option Bytes) :=
  if a = d.owner then d.call.writes? key else none

def after (l : List Deed) (a : Address) (key : Bytes) (before : Option Bytes) : Option Bytes :=
  (l.filterMap (·.writes? a key)).getLast?.getD before

def held (l : List Deed) (a : Address) (key : Bytes) : Option Bytes := after l a key none

theorem after_append (l l' : List Deed) (a : Address) (key : Bytes) (before : Option Bytes) :
    after (l ++ l') a key before = after l' a key (after l a key before) := by
  unfold after
  rw [List.filterMap_append, List.getLast?_append]
  cases (l'.filterMap (·.writes? a key)).getLast? <;> rfl

theorem after_singleton (d : Deed) (a : Address) (key : Bytes) (before : Option Bytes) :
    after [d] a key before = (d.writes? a key).getD before := by
  unfold after
  cases hw : d.writes? a key <;> simp [hw]

theorem length_of_held {l : List Deed} {a : Address} {key value : Bytes}
    (h : held l a key = some value) : value.length ≤ Int32.maxValue.toInt := by
  have hlast : (l.filterMap (·.writes? a key)).getLast? = some (some value) := by
    unfold held after at h
    cases hl : (l.filterMap (·.writes? a key)).getLast? with
    | none =>
      rw [hl] at h
      cases h
    | some w =>
      rw [hl] at h
      exact congrArg some h
  obtain ⟨d, -, hd⟩ := List.mem_filterMap.mp (List.mem_of_getLast? hlast)
  exact d.call.length_of_writes? (Option.ite_none_right_eq_some.mp hd).2

end Deed

namespace Frame

variable (p : Platform) (fr : Frame)

def hostCalls : List HostCall :=
  match fr.session? p with
  | none => []
  | some ss =>
    ss.sandbox.placingCalls fr.call.payload ss.world ++
      ss.sandbox.servingCalls fr.call.function fr.call.payload ss.world

def deedsWithin : Nat → Frame → List Deed
  | 0, fr => (fr.hostCalls p).map (⟨fr, ·⟩)
  | levels + 1, fr => (fr.hostCalls p).flatMap fun h =>
    ⟨fr, h⟩ :: (h.frame? fr.levels).toList.flatMap (deedsWithin levels)

def deeds : List Deed := deedsWithin p fr.levels fr

variable {p fr} {h : HostCall} {ss : Session}

theorem mem_hostCalls : h ∈ fr.hostCalls p ↔ fr.Serves p h := by
  unfold hostCalls Serves
  cases hs : fr.session? p with
  | none => simp
  | some ss => simp only [Sandbox.mem_callsInvoked, Option.some.injEq, exists_eq_left']

theorem levels_of_frame? {levels : Nat} {fr' : Frame} (h' : h.frame? levels = some fr') :
    fr'.levels + 1 = levels := by
  unfold HostCall.frame? at h'
  split at h'
  · obtain ⟨-, h'⟩ := Option.ite_none_right_eq_some.mp h'
    cases h'
    rfl
  · cases h'

theorem deeds_eq (p : Platform) (fr : Frame) : fr.deeds p = (fr.hostCalls p).flatMap fun h =>
    ⟨fr, h⟩ :: (h.frame? fr.levels).toList.flatMap (·.deeds p) := by
  unfold deeds
  cases hl : fr.levels with
  | zero =>
    rw [deedsWithin, List.map_eq_flatMap]
    refine List.flatMap_congr fun h _ => ?_
    cases hfr : h.frame? 0 with
    | none => rfl
    | some fr' => cases levels_of_frame? hfr
  | succ levels =>
    rw [deedsWithin, hl]
    refine List.flatMap_congr fun h _ => congrArg _ (List.flatMap_congr fun fr' hfr => ?_)
    rw [← Nat.succ.inj (levels_of_frame? (Option.mem_toList.mp hfr))]

theorem mem_deeds {root : Frame} {d : Deed} : d ∈ root.deeds p ↔
    Relation.ReflTransGen (Nests p) root d.frame ∧ d.frame.Serves p d.call := by
  induction root using of_nested (p := p) with
  | step root ih =>
    rw [deeds_eq, Relation.ReflTransGen.cases_head_iff]
    simp only [List.mem_flatMap, List.mem_cons, Option.mem_toList, mem_hostCalls]
    constructor
    · rintro ⟨h, hh, rfl | ⟨fr, hfr, hd⟩⟩
      · exact ⟨.inl rfl, hh⟩
      · have hn : root.Nests p fr := ⟨h, makes_iff.mpr ⟨hh, hfr⟩⟩
        obtain ⟨ht, hs⟩ := (ih fr hn).mp hd
        exact ⟨.inr ⟨fr, hn, ht⟩, hs⟩
    · rintro ⟨rfl | ⟨fr, ⟨h, hm⟩, ht⟩, hs⟩
      · exact ⟨d.call, hs, .inl rfl⟩
      · obtain ⟨hh, hfr⟩ := makes_iff.mp hm
        exact ⟨h, hh, .inr ⟨fr, hfr, (ih fr ⟨h, hm⟩).mpr ⟨ht, hs⟩⟩⟩

end Frame

namespace World

structure Recalls (l : List Deed) (u v : World) : Prop where
  stored : ∀ a key, v.stored a key = Deed.after l a key (u.stored a key)
  found : ∀ before d after, l = before ++ d :: after → ∀ a key,
    d.call.scene.world.stored a key = Deed.after before a key (u.stored a key)

namespace Recalls

variable {l l' : List Deed} {u v w : World}

theorem of_eq (h : v.service = u.service) : u.Recalls [] v where
  stored a key := by
    rw [World.stored, h]
    rfl
  found before d after hl := by simp at hl

theorem trans (h : u.Recalls l v) (h' : v.Recalls l' w) : u.Recalls (l ++ l') w where
  stored a key := by rw [h'.stored, h.stored, Deed.after_append]
  found before d after hl a key := by
    -- a deed of the second stretch comes after all deeds of the first
    obtain ⟨m, rfl, hm⟩ | ⟨m, rfl, hm⟩ := List.append_eq_append_iff.mp hl
    · rw [h'.found m d after hm, h.stored, Deed.after_append]
    · obtain ⟨rfl, hm⟩ | ⟨m, rfl, -⟩ := List.cons_eq_append_iff.mp hm
      · rw [h'.found [] d after hm.symm, h.stored, List.append_nil]
        rfl
      · exact h.found before d m rfl a key

theorem deed {fr : Frame} {h : HostCall}
    (hv : ∀ a key,
      v.stored a key = (Deed.writes? ⟨fr, h⟩ a key).getD (h.scene.world.stored a key)) :
    h.scene.world.Recalls [⟨fr, h⟩] v where
  stored a key := by rw [Deed.after_singleton, hv]
  found before d after hl a key := by
    obtain ⟨rfl, hd⟩ | ⟨-, hd⟩ := List.append_eq_singleton_iff.mp hl.symm
    · cases hd
      rfl
    · cases hd

end Recalls

end World

theorem World.recalls_accumulates : Turn.Accumulates fun l s t => s.world.Recalls l t.world where
  guest h := by
    obtain ⟨clock, hw⟩ := h.world
    rw [hw]
    exact .of_eq rfl
  trans := .trans

namespace Frame

variable {p : Platform} {fr : Frame} {ss : Session} {h : HostCall}

theorem Serves.served? (hh : fr.Serves p h) (hw : fr.world.Tidy) :
    ∃ call, h.served? = some call ∧ call.contract = fr.call.contract :=
  ⟨_, HostCall.served?_of_lookup (hh.lookup hw), rfl⟩

theorem frame?_of_other {levels : Nat} (hf : h.function ≠ .callContract) :
    h.frame? levels = none := by
  unfold HostCall.frame?
  split
  · exact if_neg fun hc => hf hc.1
  · rfl

theorem Serves.storage_of_no_frame (hh : fr.Serves p h) (hf : h.function = .callContract)
    (hn : h.frame? fr.levels = none) :
    h.run.2.world.service.ledger.storage = h.scene.world.service.ledger.storage := by
  rw [h.run_callContract hf]
  cases ho : h.commission with
  | error e => rfl
  | ok o =>
    dsimp only
    rw [o.carryOut_apply]
    split
    · rfl
    next hfuel =>
      have hsent := o.storage_transfer h.scene.world
      show (o.outcome h.scene.world).2.service.ledger.storage = _
      unfold Commission.outcome
      rcases ht : o.transfer h.scene.world with ⟨_ | _, w⟩
      · rwa [ht] at hsent
      · rw [ht] at hsent
        cases hl : fr.levels with
        | zero =>
          have hd := (h.caller.commission_fst_eq_ok ho).2.1
          rw [← Option.some.inj (hh.caller.1.symm.trans hd), hl]
          exact hsent
        | succ levels =>
          have hm : fr.Makes p h _ := .intro hl hh hf ho (Nat.not_lt.mp hfuel) ht
          rw [(makes_iff.mp hm).2] at hn
          cases hn

theorem Makes.storage {fr' : Frame} (hm : fr.Makes p h fr') :
    fr'.world.service.ledger.storage = h.scene.world.service.ledger.storage := by
  cases hm with
  | @intro levels o w hl hh hf ho hfuel ht =>
    have hsent := o.storage_transfer h.scene.world
    rwa [ht] at hsent

theorem Serves.recalls (hh : fr.Serves p h) (hw : fr.world.Tidy)
    (made : ∀ fr', fr.Nests p fr' → fr'.world.Recalls (fr'.deeds p) (p.run fr').2) :
    h.scene.world.Recalls (⟨fr, h⟩ :: (h.frame? fr.levels).toList.flatMap (·.deeds p))
      h.run.2.world := by
  by_cases hf : h.function = .callContract
  · -- the nested call itself writes nothing, and comes before all that is done in its frame
    have hwrites := h.writes?_of_other (by rw [hf]; nofun) (by rw [hf]; nofun)
    have hdeed {v : World}
        (hv : v.service.ledger.storage = h.scene.world.service.ledger.storage) :
        h.scene.world.Recalls [⟨fr, h⟩] v := by
      refine .deed fun a key => ?_
      rw [Deed.writes?, hwrites, ite_self, World.stored, Ledger.stored, hv]
      rfl
    cases hfr : h.frame? fr.levels with
    | none => exact hdeed (hh.storage_of_no_frame hf hfr)
    | some fr' =>
      have hm : fr.Makes p h fr' := makes_iff.mpr ⟨hh, hfr⟩
      have hrecalls := (hdeed hm.storage).trans (made fr' ⟨h, hm⟩)
      rw [hm.run_eq.2]
      simpa using hrecalls
  · obtain ⟨call, hs, hcontract⟩ := hh.served? hw
    have hstores := h.storesFor hh.caller.2 hf hs
    rw [hcontract] at hstores
    rw [frame?_of_other hf]
    exact .deed hstores

theorem session_service (hs : fr.session? p = some ss) (hw : fr.world.Tidy) :
    ss.world.service = fr.world.service := by
  obtain ⟨a, u, s, s', v, hl, hf, hb, rfl⟩ := session?_eq_some hs
  have hidles := started_idles hl hf
  have hloads := fr.loads_loaded p
  rw [hb] at hidles
  rw [hl] at hloads
  have htidy := hloads.keepsRegistry.tidy hw
  obtain ⟨cache, journal, rfl⟩ := hloads
  exact (hidles htidy.get?_nextSandbox).2

theorem invoke_recalls (hs : fr.session? p = some ss) (hw : fr.world.Tidy)
    (made : ∀ fr', fr.Nests p fr' → fr'.world.Recalls (fr'.deeds p) (p.run fr').2) :
    ss.world.Recalls (fr.deeds p)
      (ss.sandbox.invoke fr.call.function fr.call.payload ss.world).2.2 := by
  rw [deeds_eq, hostCalls, hs]
  exact Sandbox.invoke_accumulates World.recalls_accumulates
    (fun h => ⟨fr, h⟩ :: (h.frame? fr.levels).toList.flatMap (·.deeds p))
    (fun h hh => Serves.recalls ⟨ss, hs, hh⟩ hw made) fun _ => .of_eq rfl

theorem run_recalls (hw : fr.world.Tidy) : fr.world.Recalls (fr.deeds p) (p.run fr).2 := by
  -- over the tree: a frame finds storage as it was before its nested call, and leaves it to the
  -- guest around it as its own deeds say
  induction fr using of_nested (p := p) with
  | step fr ih =>
    cases hs : fr.session? p with
    | none =>
      have hnone : fr.deeds p = [] := by rw [deeds_eq, hostCalls, hs, List.flatMap_nil]
      rw [hnone]
      exact .of_eq (fr.run_of_unserved hw hs).2
    | some ss =>
      have hinvoke := (World.Recalls.of_eq (session_service hs hw)).trans
        (invoke_recalls hs hw fun fr' hn => ih fr' hn (hn.tidy hw))
      rw [run_of_session hs, ss.finish_eq]
      exact ⟨hinvoke.stored, hinvoke.found⟩

end Frame

/-- Calls that are made one after the other, and the world that they lead to. At first nothing is
stored. Between two calls anything may happen but to what is stored and to the calls under way. -/
inductive Platform.Records (p : Platform) : List Frame → World → Prop
  | start {w : World} : w.registry = .empty → w.service.ledger.storage = .empty → Records p [] w
  | call {roots : List Frame} {w : World} (cancel : Cancellation) (call : Call) :
      Records p roots w →
      Records p (roots ++ [p.root cancel call w]) (p.execute cancel call w).2
  | between {roots : List Frame} {u v : World} :
      Records p roots u → v.registry = u.registry → u.nextSandbox ≤ v.nextSandbox →
      v.service.ledger.storage = u.service.ledger.storage → Records p roots v

namespace Platform.Records

variable {p : Platform} {roots : List Frame} {w : World}

theorem reachable (h : p.Records roots w) : p.Reachable w := by
  induction h with
  | start hr _ => exact .start hr
  | call cancel call _ ih => exact ih.call cancel call
  | between _ hr hn _ ih => exact ih.between hr hn

theorem tidy (h : p.Records roots w) : ∀ root ∈ roots, root.world.Tidy := by
  induction h with
  | start => nofun
  | call cancel call h ih =>
    intro root hroot
    obtain hroot | hroot := List.mem_append.mp hroot
    · exact ih root hroot
    · rw [List.mem_singleton.mp hroot]
      exact h.reachable.tidy
  | between _ _ _ _ ih => exact ih

theorem recalls (h : p.Records roots w) :
    ∃ u : World, (∀ a key, u.stored a key = none) ∧
      u.Recalls (roots.flatMap (·.deeds p)) w := by
  induction h with
  | @start w _ hempty =>
    refine ⟨w, fun a key => ?_, .of_eq rfl⟩
    rw [World.stored, Ledger.stored, hempty]
    rfl
  | call cancel call h ih =>
    obtain ⟨u, hu, hrecalls⟩ := ih
    refine ⟨u, hu, ?_⟩
    rw [List.flatMap_append, List.flatMap_singleton, execute_eq_run]
    exact hrecalls.trans (Frame.run_recalls h.reachable.tidy)
  | between _ _ _ hsame ih =>
    obtain ⟨u, hu, hrecalls⟩ := ih
    refine ⟨u, hu, fun a key => ?_, hrecalls.found⟩
    rw [World.stored, Ledger.stored, hsame]
    exact hrecalls.stored a key

end Platform.Records

/-- The storage of every account is a map of its own. Over all calls and nested calls, `getState`
and `deleteState` answer by what frames of the same account have last put under the same key or
deleted there, and by nothing else; and what is stored in the end is what was last put. Bytes are
only ever copied to places inside the memory: a guest that names another place for them gets an
error, whether or not there is anything to copy. -/
theorem Platform.Records.storage_is_a_map_for_each_account {p : Platform} {roots : List Frame}
    {w : World} (hr : p.Records roots w) :
    let deeds := roots.flatMap (·.deeds p)
    (∀ d, d ∈ deeds ↔ (∃ root ∈ roots, Relation.ReflTransGen (Frame.Nests p) root d.frame) ∧
      d.frame.Serves p d.call) ∧
    (∀ before d after, deeds = before ++ d :: after → d.call.Obeys (Deed.held before d.owner)) ∧
    (∀ a key, w.stored a key = Deed.held deeds a key) ∧
    ∀ root ∈ roots, ∀ fr, Relation.ReflTransGen (Frame.Nests p) root fr → ∀ h, fr.Starts p h →
      h.function ∈ [.getState, .putState, .deleteState] → h.Fails ∧ h.scene.Untouched h.run.2 := by
  intro deeds
  obtain ⟨u, hu, hrecalls⟩ := hr.recalls
  have hmem : ∀ d, d ∈ deeds ↔ (∃ root ∈ roots,
      Relation.ReflTransGen (Frame.Nests p) root d.frame) ∧ d.frame.Serves p d.call := by
    intro d
    simp only [deeds, List.mem_flatMap, Frame.mem_deeds]
    constructor
    · rintro ⟨root, hroot, ht, hs⟩
      exact ⟨⟨root, hroot, ht⟩, hs⟩
    · rintro ⟨⟨root, hroot, ht⟩, hs⟩
      exact ⟨root, hroot, ht, hs⟩
  refine ⟨hmem, fun before d after hd => ?_, fun a key => ?_, fun root hroot fr ht h hh hf => ?_⟩
  · have hin : d ∈ deeds := by rw [hd]; exact List.mem_append_right _ List.mem_cons_self
    obtain ⟨⟨root, hroot, ht⟩, hs⟩ := (hmem d).mp hin
    obtain ⟨call, hserved, hcontract⟩ := hs.served? (Frame.tree_tidy (hr.tidy root hroot) ht)
    refine HostCall.obeys hserved (fun key => ?_) fun key value hv => Deed.length_of_held hv
    rw [hrecalls.found before d after hd, hu, hcontract]
    rfl
  · rw [hrecalls.stored, hu]
    rfl
  · have hserved : h.served? = none := hh.unregistered (Frame.tree_tidy (hr.tidy root hroot) ht)
    obtain ⟨e, he⟩ := HostCall.run_storage_of_unserved hf hserved
    exact ⟨⟨_, by rw [he]⟩, .of_eq (by rw [he])⟩

/-- A module that puts two bytes under a key, and asks for them at once. -/
def Wasm.Module.keeper (out capacity : Cell) : Wasm.Module where
  imports := [⟨"state", "get", .function HostFunction.getState.type⟩,
    ⟨"state", "put", .function HostFunction.putState.type⟩]
  functions := #[⟨⟨[.i32], [.i32]⟩, [], [.const .i32 0, .const .i32 1, .const .i32 1, .const .i32 2,
    .call 1, .const .i32 0, .const .i32 1, .const .i32 out, .const .i32 capacity, .call 0, .drop,
    .const .i32 64]⟩, ⟨⟨[.i32], []⟩, [], []⟩]
  memory := some ⟨1, none⟩
  exports := [⟨"memory", .memory, 0⟩, ⟨"alloc", .function, 2⟩, ⟨"", .function, 3⟩]
  data := [⟨.const .i32 0, [1, 2, 3]⟩]

def Frame.keeping (out capacity : Cell) : Frame :=
  Platform.root ⟨{}, none, {}⟩ none { fuel := 100 } (.hosting (.keeper out capacity))

theorem Platform.Records.keeping (out capacity : Cell) :
    Platform.Records ⟨{}, none, {}⟩ [.keeping out capacity]
      (Platform.run ⟨{}, none, {}⟩ (.keeping out capacity)).2 :=
  (Platform.Records.start rfl rfl).call none { fuel := 100 }

set_option maxRecDepth 4000 in
theorem Platform.Records.storage_is_a_map_for_a_keeper :
    let p : Platform := ⟨{}, none, {}⟩
    ∃ w before d after, p.Records [.keeping 16 8] w ∧
      [Frame.keeping 16 8].flatMap (·.deeds p) = before ++ d :: after ∧
      Deed.held before d.owner [1] = some [2, 3] ∧
      (∃ r, d.call.Returns r ∧ r.int32 = 2) ∧
      d.call.scene.guest.memory.Written 16 [2, 3] d.call.run.2.guest.memory := by
  intro p
  have hr := Platform.Records.keeping 16 8
  have hrun : ([Frame.keeping 16 8].flatMap (·.deeds p)).length = 2 ∧
      (∀ d ∈ ([Frame.keeping 16 8].flatMap (·.deeds p))[1]?,
        d.owner = .zero ∧ d.call.function = .getState ∧ d.call.word 2 = 16 ∧ d.call.word 3 = 8 ∧
          d.call.given? 0 1 = some [1] ∧
          d.call.scene.world.service.outages.get? .getState = none ∧
          d.call.caller.exportsMemory = true ∧ d.call.scene.guest.memory.size = 65536) ∧
      Deed.held (([Frame.keeping 16 8].flatMap (·.deeds p)).take 1) .zero [1] = some [2, 3] := by
    decide +kernel
  obtain ⟨hlength, hsecond, hheld⟩ := hrun
  have hobeys := hr.storage_is_a_map_for_each_account.2.1
  obtain ⟨put, d, hdeeds⟩ := List.length_eq_two.mp hlength
  rw [hdeeds] at hsecond hheld hobeys
  obtain ⟨howner, hf, hout, hcapacity, hkey, havailable, hmemory, hsize⟩ := hsecond d rfl
  rw [← howner] at hheld
  have hasks : d.call.Asks .getState .getState [1] := ⟨hf, hkey, havailable⟩
  have hpresent := (hobeys [put] d [] rfl).present [1] [2, 3] hasks hheld
  rw [hout, hcapacity] at hpresent
  have hfits : d.call.scene.Fits d.call.caller 16 2 := ⟨hmemory, by decide, by rw [hsize]; decide⟩
  obtain ⟨hreturns, hwritten⟩ := hpresent.1 hfits
  exact ⟨_, [put], d, [], hr, hdeeds, hheld, hreturns, hwritten⟩

set_option maxRecDepth 4000 in
theorem Platform.keeper_gets_no_length :
    let p : Platform := ⟨{}, none, {}⟩
    ∃ w before d after, p.Records [.keeping (.ofInt32 (-1)) 0] w ∧
      [Frame.keeping (.ofInt32 (-1)) 0].flatMap (·.deeds p) = before ++ d :: after ∧
      d.call.Asks .getState .getState [1] ∧ d.call.word 3 = 0 ∧
      Deed.held before d.owner [1] = some [2, 3] ∧ d.call.Fails := by
  intro p
  have hr := Platform.Records.keeping (.ofInt32 (-1)) 0
  have hrun : ([Frame.keeping (.ofInt32 (-1)) 0].flatMap (·.deeds p)).length = 2 ∧
      (∀ d ∈ ([Frame.keeping (.ofInt32 (-1)) 0].flatMap (·.deeds p))[1]?,
        d.owner = .zero ∧ d.call.function = .getState ∧ d.call.word 3 = 0 ∧
          d.call.given? 0 1 = some [1] ∧
          d.call.scene.world.service.outages.get? .getState = none ∧
          d.call.run.1.toOption.isNone) ∧
      Deed.held (([Frame.keeping (.ofInt32 (-1)) 0].flatMap (·.deeds p)).take 1) .zero [1] =
        some [2, 3] := by
    decide +kernel
  obtain ⟨hlength, hsecond, hheld⟩ := hrun
  obtain ⟨put, d, hdeeds⟩ := List.length_eq_two.mp hlength
  rw [hdeeds] at hsecond hheld
  obtain ⟨howner, hf, hcapacity, hkey, havailable, hnone⟩ := hsecond d rfl
  rw [← howner] at hheld
  refine ⟨_, [put], d, [], hr, hdeeds, ⟨hf, hkey, havailable⟩, hcapacity, hheld, ?_⟩
  cases hcall : d.call.run.1 with
  | error e => exact ⟨e, hcall⟩
  | ok reply =>
    rw [hcall] at hnone
    cases hnone

end MeteredContracts
