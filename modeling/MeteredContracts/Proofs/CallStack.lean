import Mathlib.Logic.Relation
import MeteredContracts.Proofs.FrameRules
import MeteredContracts.Proofs.Loading
import MeteredContracts.Proofs.Tables

namespace MeteredContracts

open Wasm (Cell)

namespace World

/-- Every sandbox on the registry has been named already. -/
def Tidy (w : World) : Prop := ∀ e ∈ w.registry.entries, e.1 < w.nextSandbox

def KeepsRegistry (u v : World) : Prop :=
  u.Tidy → v.registry = u.registry ∧ u.nextSandbox ≤ v.nextSandbox

theorem KeepsRegistry.tidy {u v : World} (h : u.KeepsRegistry v) (hu : u.Tidy) : v.Tidy := by
  intro e he
  rw [(h hu).1] at he
  exact Nat.lt_of_lt_of_le (hu e he) (h hu).2

theorem KeepsRegistry.of_eq {u v : World} (hr : v.registry = u.registry)
    (hn : v.nextSandbox = u.nextSandbox) : u.KeepsRegistry v :=
  fun _ => ⟨hr, Nat.le_of_eq hn.symm⟩

theorem KeepsRegistry.trans {u v w : World} (h : u.KeepsRegistry v) (h' : v.KeepsRegistry w) :
    u.KeepsRegistry w := by
  intro hu
  have hv := h' (h.tidy hu)
  exact ⟨hv.1.trans (h hu).1, Nat.le_trans (h hu).2 hv.2⟩

theorem Tidy.notMem {u v : World} (hu : u.Tidy) (hv : v.registry = u.registry) :
    ∀ e ∈ v.registry.entries, e.1 ≠ u.nextSandbox := by
  intro e he
  rw [hv] at he
  exact Nat.ne_of_lt (hu e he)

theorem Tidy.register {u v : World} (hu : u.Tidy) (hv : v.registry = u.registry)
    (hn : u.nextSandbox < v.nextSandbox) (call : Call) :
    (Registry.register v.registry u.nextSandbox call).entries =
        (u.nextSandbox, call) :: u.registry.entries ∧
      ({ v with registry := Registry.register v.registry u.nextSandbox call } : World).Tidy := by
  have he : (Registry.register v.registry u.nextSandbox call).entries =
      (u.nextSandbox, call) :: u.registry.entries := by
    rw [← hv]
    exact v.registry.entries_insert (hu.notMem hv) call
  refine ⟨he, fun e hm => ?_⟩
  change e ∈ (Registry.register v.registry u.nextSandbox call).entries at hm
  rw [he] at hm
  obtain rfl | hm := List.mem_cons.mp hm
  · exact hn
  · exact Nat.lt_trans (hu e hm) hn

theorem Tidy.name {u : World} (hu : u.Tidy) :
    ({ u with nextSandbox := u.nextSandbox + 1 } : World).Tidy :=
  fun e he => Nat.lt_succ_of_lt (hu e he)

theorem Tidy.get?_nextSandbox {w : World} (hw : w.Tidy) :
    w.registry.get? w.nextSandbox = none := by
  cases hr : w.registry.get? w.nextSandbox with
  | none => rfl
  | some call => exact absurd (hw _ (w.registry.mem_of_get? hr)) (Nat.lt_irrefl _)

theorem keepsRegistry_allows : AllowsFrames KeepsRegistry where
  refl w := .of_eq rfl rfl
  trans := .trans
  note w e := .of_eq rfl rfl
  clock w clock := .of_eq rfl rfl
  ask w id call r _ _ := .of_eq rfl rfl
  name w _ := ⟨rfl, Nat.le_succ _⟩
  serve := by
    intro u v w call fuel cacheHit _ huv hvw hu
    obtain ⟨hr, hn⟩ := huv hu.name
    obtain ⟨hr', hn'⟩ := hvw (hu.register hr hn call).2
    refine ⟨?_, Nat.le_trans (Nat.le_of_succ_le hn) hn'⟩
    show w.registry.erase u.nextSandbox = u.registry
    rw [hr']
    exact (v.registry.erase_insert (hu.notMem hr) call).trans hr

theorem Loads.keepsRegistry {u v : World} (h : u.Loads v) : u.KeepsRegistry v := by
  obtain ⟨cache, journal, rfl⟩ := h
  exact .of_eq rfl rfl

end World

namespace Frame

variable {p : Platform} {root fr : Frame} {ss : Session} {h : HostCall}

theorem run_keepsRegistry (p : Platform) (fr : Frame) : fr.world.KeepsRegistry (p.run fr).2 :=
  World.keepsRegistry_allows.run_all (fun fr => (fr.loads_loaded p).keepsRegistry) fr

theorem session_registry (hs : fr.session? p = some ss) (hw : fr.world.Tidy) :
    ss.world.registry.entries = ss.entry fr.call :: fr.world.registry.entries ∧
      ss.world.Tidy := by
  obtain ⟨a, u, v, hl, hstart, hid, hworld⟩ :=
    session_begins World.keepsRegistry_allows.toAllows hs
  have hload := (fr.loads_loaded p).keepsRegistry
  rw [hl] at hload
  have htidy := hload.tidy hw
  obtain ⟨hr, hn⟩ := hstart htidy.name
  obtain ⟨hentries, htidy'⟩ := htidy.register hr hn (ss.entry fr.call).2
  have hentry : (u.nextSandbox, (ss.entry fr.call).2) = ss.entry fr.call := Prod.ext hid.symm rfl
  rw [hentry, (hload hw).1] at hentries
  rw [hworld]
  exact ⟨hentries, htidy'⟩

theorem serves_registry (hs : fr.session? p = some ss)
    (hh : ss.sandbox.CallsInvoked fr.call.function fr.call.payload ss.world h)
    (hw : ss.world.Tidy) :
    h.scene.world.registry = ss.world.registry ∧ h.scene.world.Tidy := by
  have hkeeps : ss.world.KeepsRegistry h.scene.world :=
    serves_keeps World.keepsRegistry_allows.toAllows hs hh fun fr' _ => run_keepsRegistry p fr'
  exact ⟨(hkeeps hw).1, hkeeps.tidy hw⟩

theorem Nests.session {fr' : Frame} (hn : fr.Nests p fr') : ∃ ss, fr.session? p = some ss := by
  obtain ⟨h, hn⟩ := hn
  cases hn with
  | intro _ hh =>
    obtain ⟨ss, hs, -⟩ := hh
    exact ⟨ss, hs⟩

theorem nests_registry {fr' : Frame} (hs : fr.session? p = some ss) (hn : fr.Nests p fr')
    (hw : ss.world.Tidy) : fr'.world.registry = ss.world.registry ∧ fr'.world.Tidy := by
  obtain ⟨h, hm⟩ := hn
  obtain ⟨ss', hs', hh⟩ := hm.serves.1
  obtain rfl : ss = ss' := Option.some.inj (hs.symm.trans hs')
  obtain ⟨hr, hw'⟩ := serves_registry hs hh hw
  have hsend := hm.sends World.keepsRegistry_allows.toAllows
  exact ⟨((hsend hw').1).trans hr, hsend.tidy hw'⟩

theorem Nests.tidy {fr' : Frame} (hn : fr.Nests p fr') (hw : fr.world.Tidy) : fr'.world.Tidy := by
  obtain ⟨ss, hs⟩ := hn.session
  exact (nests_registry hs hn (session_registry hs hw).2).2

/-- The frames that are served at one time: the innermost one, and those around it from the inside
to the root. -/
inductive Live (p : Platform) (root : Frame) : Frame → Session → List (Frame × Session) → Prop
  | root {ss : Session} : root.session? p = some ss → Live p root root ss []
  | nested {fr fr' : Frame} {ss ss' : Session} {outer : List (Frame × Session)} :
      Live p root fr ss outer → fr.Nests p fr' → fr'.session? p = some ss' →
      Live p root fr' ss' ((fr, ss) :: outer)

def entries (live : List (Frame × Session)) : List (Nat × Call) :=
  live.map fun f => f.2.entry f.1.call

theorem Live.session {outer : List (Frame × Session)} (hlive : Live p root fr ss outer) :
    fr.session? p = some ss := by
  cases hlive with
  | root hs => exact hs
  | nested _ _ hs => exact hs

theorem Live.registry {outer : List (Frame × Session)} (hlive : Live p root fr ss outer)
    (hw : root.world.Tidy) :
    ss.world.registry.entries = entries ((fr, ss) :: outer) ++ root.world.registry.entries ∧
      ss.world.Tidy := by
  -- from the root inwards: a session finds what the session around it has begun with
  induction hlive with
  | root hs => exact session_registry hs hw
  | nested houter hn hs ih =>
    obtain ⟨hr, htidy⟩ := nests_registry houter.session hn ih.2
    have hsession := session_registry hs htidy
    rw [hr, ih.1] at hsession
    exact hsession

theorem tree_tidy (hw : root.world.Tidy) (ht : Relation.ReflTransGen (Nests p) root fr) :
    fr.world.Tidy := by
  induction ht with
  | refl => exact hw
  | tail _ hn ih => exact hn.tidy ih

end Frame

/-- The worlds that calls can find which are made one after the other. Between two of them anything
may happen but to the calls that are under way, and no name is given twice. -/
inductive Platform.Reachable (p : Platform) : World → Prop
  | start {w : World} : w.registry = .empty → Reachable p w
  | call {w : World} (cancel : Cancellation) (call : Call) :
      Reachable p w → Reachable p (p.execute cancel call w).2
  | between {u v : World} :
      Reachable p u → v.registry = u.registry → u.nextSandbox ≤ v.nextSandbox → Reachable p v

theorem Platform.Reachable.registry {p : Platform} {w : World} (h : p.Reachable w) :
    w.registry = .empty := by
  induction h with
  | start h => exact h
  | @call w cancel call _ ih =>
    have hw : w.Tidy := by
      intro e he
      rw [ih] at he
      cases he
    exact ((Frame.run_keepsRegistry p (p.root cancel call w) hw).1).trans ih
  | between _ hr _ ih => exact hr.trans ih

theorem Platform.Reachable.tidy {p : Platform} {w : World} (h : p.Reachable w) : w.Tidy := by
  intro e he
  rw [h.registry] at he
  cases he

/-- While a host function is called in a frame that is served, the registry holds the live calls,
each under the name of its own sandbox and under no other, and the host function acts for the
innermost of them. Whatever becomes of a call, it leaves the registry as it was. -/
theorem Platform.Reachable.registry_mirrors_calls {p : Platform} {w : World} (hw : p.Reachable w)
    (cancel : Cancellation) (call : Call) :
    p.RunsFrames ∧
    (∀ fr ss outer h, Frame.Live p (p.root cancel call w) fr ss outer →
      ss.sandbox.CallsInvoked fr.call.function fr.call.payload ss.world h →
      h.scene.world.registry.entries = Frame.entries ((fr, ss) :: outer) ∧
      (((fr, ss) :: outer).map fun f => f.2.sandbox.id).Nodup ∧
      h.caller.sandbox = ss.sandbox.id ∧
      ∀ f ∈ (fr, ss) :: outer, Registry.lookup h.scene.world.registry f.2.sandbox.id =
        .ok { f.1.call with sandbox := some f.2.sandbox.id }) ∧
    (∀ fr, Relation.ReflTransGen (Frame.Nests p) (p.root cancel call w) fr →
      (p.run fr).2.registry = fr.world.registry) ∧
    (p.execute cancel call w).2.registry = w.registry := by
  refine ⟨p.runsFrames, fun fr ss outer h hlive hh => ?_, fun fr ht => ?_, ?_⟩
  · obtain ⟨hentries, htidy⟩ := hlive.registry hw.tidy
    rw [← (Frame.serves_registry hlive.session hh htidy).1] at hentries
    rw [show (p.root cancel call w).world.registry = .empty from hw.registry] at hentries
    replace hentries := hentries.trans (List.append_nil _)
    refine ⟨hentries, ?_, hh.caller.1, fun f hf => ?_⟩
    · have hnodup := h.scene.world.registry.nodup
      rwa [hentries, Frame.entries, List.map_map] at hnodup
    · have hmem : f.2.entry f.1.call ∈ h.scene.world.registry.entries := by
        rw [hentries]
        exact List.mem_map_of_mem hf
      unfold Registry.lookup
      rw [h.scene.world.registry.get?_of_mem hmem]
  · exact (Frame.run_keepsRegistry p fr (Frame.tree_tidy hw.tidy ht)).1
  · exact (Frame.run_keepsRegistry p (p.root cancel call w) hw.tidy).1

def Wasm.Module.mirror : Wasm.Module where
  imports := [⟨"contract", "call_contract", .function HostFunction.callContract.type⟩]
  functions := #[⟨⟨[.i32], [.i32]⟩, [], [.const .i32 0, .const .i32 0, .const .i32 0, .const .i32 0,
    .const .i32 0, .const .i64 7, .const .i64 0, .call 0, .drop, .const .i32 0]⟩]
  memory := some ⟨1, none⟩
  exports := [⟨"memory", .memory, 0⟩, ⟨"alloc", .function, 1⟩, ⟨"", .function, 1⟩]

set_option maxRecDepth 4000 in
theorem Platform.Reachable.registry_mirrors_a_call_of_itself :
    let p : Platform := ⟨{}, none, {}⟩
    let root := p.root none { fuel := 100 } (.hosting .mirror)
    ∃ fr ss rootSession h, Frame.Live p root fr ss [(root, rootSession)] ∧
      ss.sandbox.CallsInvoked fr.call.function fr.call.payload ss.world h ∧
      fr.call.contract = root.call.contract ∧
      h.scene.world.registry.entries = [ss.entry fr.call, rootSession.entry root.call] ∧
      ss.sandbox.id ≠ rootSession.sandbox.id := by
  intro p root
  have hrun : ((root.firstNested? p).bind fun fr =>
      ((fr.session? p).bind fun ss => ss.firstCall? fr.call).map fun _ => fr.call.contract) =
        some root.call.contract := by
    decide +kernel
  obtain ⟨fr, hfr, hrun⟩ := Option.bind_eq_some_iff.mp hrun
  obtain ⟨h, hh, hcontract⟩ := Option.map_eq_some_iff.mp hrun
  obtain ⟨ss, hs, hh⟩ := Option.bind_eq_some_iff.mp hh
  have hn := Frame.nests_of_firstNested? hfr
  obtain ⟨rootSession, hroot⟩ := hn.session
  have hlive : Frame.Live p root fr ss [(root, rootSession)] := .nested (.root hroot) hn hs
  have hcalls := ss.callsInvoked_of_firstCall? hh
  have hreachable : p.Reachable (.hosting .mirror) := .start rfl
  obtain ⟨hentries, hnodup, -⟩ := (hreachable.registry_mirrors_calls none { fuel := 100 }).2.1 fr ss
    [(root, rootSession)] h hlive hcalls
  refine ⟨fr, ss, rootSession, h, hlive, hcalls, hcontract, hentries, fun hid => ?_⟩
  rw [List.map_cons, List.nodup_cons] at hnodup
  exact hnodup.1 (List.mem_cons.mpr (.inl hid))

end MeteredContracts
