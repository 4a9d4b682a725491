import MeteredContracts.Proofs.Contexts
import MeteredContracts.Proofs.Failures

namespace MeteredContracts

theorem Caller.call_apply (c : Caller) (s : Scene) :
    c.call s = (HostM.ofExcept (Registry.lookup s.world.registry c.sandbox) s) := rfl

namespace HostCall

variable {h : HostCall} {limit : UInt32}

theorem commission_of_unknown {e : HostError}
    (hl : Registry.lookup h.scene.world.registry h.caller.sandbox = .error e) :
    h.commission = .error (.host e) := by
  have hcall : h.caller.call h.scene = (.error (.host e), h.scene) := by
    rw [Caller.call_apply, hl]
    rfl
  simp only [commission, Caller.commission, HostM.bind_apply, hcall]

theorem commission_of_deep {call : Call} {delegate : Delegate}
    (hl : Registry.lookup h.scene.world.registry h.caller.sandbox = .ok call)
    (hd : h.caller.delegate = some delegate) (hdepth : delegate.maxDepth ≤ call.depth) :
    h.commission = .error (.host (.callDepthExceeded delegate.maxDepth)) := by
  have hcall : h.caller.call h.scene = (.ok call, h.scene) := by
    rw [Caller.call_apply, hl]
    rfl
  have hrefused : h.caller.delegateAt call.depth h.scene =
      (.error (.host (.callDepthExceeded delegate.maxDepth)), h.scene) := by
    simp only [Caller.delegateAt, hd, hdepth, if_true]
    rfl
  simp only [commission, Caller.commission, HostM.bind_apply, hcall, hrefused]

end HostCall

namespace Frame

variable {p : Platform} {root fr fr' : Frame} {ss : Session} {h : HostCall}

theorem Serves.refused (hh : fr.Serves p h) (hw : fr.world.Tidy) (hf : h.function = .callContract)
    (hdepth : p.config.execution.maxCallDepth ≤ fr.call.depth) :
    h.run = (.error (.host (.callDepthExceeded p.config.execution.maxCallDepth)), h.scene) := by
  have hlimit := p.delegate_maxDepth fr.levels
  have hrefused := HostCall.commission_of_deep (hh.lookup hw) hh.caller.1 (by rwa [hlimit])
  rw [h.run_callContract hf, hrefused, hlimit]

theorem Serves.run_of_refused {e : HostError} (hh : fr.Serves p h)
    (hr : h.run.1 = .error (.host e)) :
    (p.run fr).1.output = .error (.host e) ∨
      ∃ reason, (p.run fr).1.output = .error (.memoryWrite reason) := by
  obtain ⟨ss, hs, hh⟩ := hh
  rw [run_of_session hs, Session.finish_eq]
  exact Sandbox.invoke_of_refused hh hr

theorem Starts.unregistered (hh : fr.Starts p h) (hw : fr.world.Tidy) :
    h.scene.world.registry.get? h.caller.sandbox = none := by
  have hstarts := hh
  obtain ⟨a, w, s, function, hl, hf, hm, hh⟩ := hh
  have hload := (fr.loads_loaded p).keepsRegistry
  rw [hl] at hload
  have htidy := hload.tidy hw
  have hkeeps : World.KeepsRegistry { w with nextSandbox := w.nextSandbox + 1 } h.scene.world :=
    hh.keeps World.keepsRegistry_allows.toAllows.follows fun h hh =>
      Starts.run_keeps World.keepsRegistry_allows.toAllows ⟨a, w, s, function, hl, hf, hm, hh⟩
  rw [hh.caller.1, (fresh_sandbox hf).id, (hkeeps htidy.name).1]
  exact htidy.get?_nextSandbox

theorem Starts.refused (hh : fr.Starts p h) (hw : fr.world.Tidy) (hf : h.function = .callContract) :
    h.run = (.error (.host (.unknownCall h.caller.sandbox)), h.scene) := by
  have hl : Registry.lookup h.scene.world.registry h.caller.sandbox =
      .error (.unknownCall h.caller.sandbox) := by
    rw [Registry.lookup, hh.unregistered hw]
  rw [h.run_callContract hf, HostCall.commission_of_unknown hl]

theorem Makes.depth_lt (hm : fr.Makes p h fr') (hw : fr.world.Tidy) :
    fr.call.depth < p.config.execution.maxCallDepth := by
  cases hm with
  | intro _ hh _ ho => exact hh.depth_lt hw ho

theorem Below.depth_le {n : Nat} (hb : root.Below p n fr) (hw : root.world.Tidy)
    (hd : root.call.depth ≤ p.config.execution.maxCallDepth) :
    fr.call.depth ≤ p.config.execution.maxCallDepth := by
  cases hb with
  | root => exact hd
  | nested hb hm =>
    have htidy := tree_tidy hw hb.tree
    have hlt := UInt32.lt_iff_toNat_lt.mp (hm.depth_lt htidy)
    have hdepth := (hm.call_eq htidy).2.1
    rw [UInt32.le_iff_toNat_le]
    omega

theorem Live.below_length {outer : List (Frame × Session)} (hlive : Live p root fr ss outer) :
    root.Below p outer.length fr := by
  induction hlive with
  | root => exact .root
  | nested _ hn _ ih =>
    obtain ⟨h, hm⟩ := hn
    exact .nested ih hm

theorem Live.size {outer : List (Frame × Session)} (hlive : Live p root fr ss outer)
    (hh : ss.sandbox.CallsInvoked fr.call.function fr.call.payload ss.world h)
    (hw : root.world.Tidy) (hempty : root.world.registry = .empty) :
    h.scene.world.registry.size = outer.length + 1 := by
  obtain ⟨hentries, htidy⟩ := hlive.registry hw
  rw [(serves_registry hlive.session hh htidy).1, Table.size, hentries, hempty]
  simp [entries, Table.empty]

end Frame

/-- In a run that starts no deeper than the limit, no frame is deeper, and there are no more frames
at a time than there are levels. A frame is one level deeper than the frame that makes it, and the
count of levels does not overflow. A guest at the limit that asks for a nested call is refused: none
is made, and nothing has changed. So is a start function, which does not act for any call yet. -/
theorem Platform.Reachable.nesting_bounded {p : Platform} {w : World} (hw : p.Reachable w)
    (cancel : Cancellation) (call : Call) (hd : call.depth ≤ p.config.execution.maxCallDepth) :
    let limit := p.config.execution.maxCallDepth
    let root := p.root cancel call w
    p.RunsFrames ∧
    (∀ n fr, root.Below p n fr →
      fr.call.depth ≤ limit ∧ n + 1 ≤ limit.toNat - call.depth.toNat + 1 ∧
      (∀ h fr', fr.Makes p h fr' → fr'.call.depth.toNat = fr.call.depth.toNat + 1) ∧
      (∀ h o v, fr.Serves p h → h.function = .callContract → h.commission = .ok o →
        o.fuel ≤ h.scene.guest.meter.remaining → o.transfer h.scene.world = (true, v) →
        ∃ fr', fr.Makes p h fr') ∧
      (∀ h, fr.Serves p h → h.function = .callContract → fr.call.depth = limit →
        h.run = (.error (.host (.callDepthExceeded limit)), h.scene) ∧
        (∀ fr', ¬fr.Makes p h fr') ∧
        ((p.run fr).1.output = .error (.host (.callDepthExceeded limit)) ∨
          ∃ reason, (p.run fr).1.output = .error (.memoryWrite reason))) ∧
      ∀ h, fr.Starts p h → h.function = .callContract →
        h.run = (.error (.host (.unknownCall h.caller.sandbox)), h.scene)) ∧
    ∀ fr ss outer h, Frame.Live p root fr ss outer →
      ss.sandbox.CallsInvoked fr.call.function fr.call.payload ss.world h →
      h.scene.world.registry.size = outer.length + 1 ∧
        outer.length + 1 ≤ limit.toNat - call.depth.toNat + 1 := by
  intro limit root
  -- each nested frame uses up one of the levels that the root has below it
  have hroom (n : Nat) (fr : Frame) (hb : root.Below p n fr) :
      n + 1 ≤ limit.toNat - call.depth.toNat + 1 := by
    have hlevels : fr.levels + n = limit.toNat - call.depth.toNat := hb.levels_eq
    omega
  refine ⟨p.runsFrames, fun n fr hb => ?_, fun fr ss outer h hlive hh => ?_⟩
  · have htidy := Frame.tree_tidy hw.tidy hb.tree
    refine ⟨hb.depth_le hw.tidy hd, hroom n fr hb, fun h fr' hm => (hm.call_eq htidy).2.1,
      fun h o v hh hf ho hfuel ht => ?_, fun h hh hf hdepth => ?_,
      fun h hh hf => hh.refused htidy hf⟩
    · obtain ⟨levels, hl⟩ := hb.levels_of_commission hw.tidy rfl hh ho
      exact ⟨_, .intro hl hh hf ho hfuel ht⟩
    · have hrefused := hh.refused htidy hf (UInt32.le_of_eq hdepth.symm)
      refine ⟨hrefused, fun fr' hm => ?_, hh.run_of_refused (congrArg Prod.fst hrefused)⟩
      have hlt := hm.depth_lt htidy
      rw [hdepth] at hlt
      exact UInt32.lt_irrefl _ hlt
  · exact ⟨hlive.size hh hw.tidy hw.registry, hroom _ fr hlive.below_length⟩

set_option maxRecDepth 4000 in
theorem Platform.Reachable.nesting_bounded_for_a_mirror :
    let p : Platform := ⟨{ execution.maxCallDepth := 1 }, none, {}⟩
    let root := p.root none { fuel := 100 } (.hosting .mirror)
    ∃ fr ss rootSession h, Frame.Live p root fr ss [(root, rootSession)] ∧ fr.Serves p h ∧
      fr.call.depth = 1 ∧ h.run = (.error (.host (.callDepthExceeded 1)), h.scene) ∧
      (∀ fr', ¬fr.Makes p h fr') ∧ h.scene.world.registry.size = 2 := by
  intro p root
  have hrun : ((root.firstNested? p).bind fun fr =>
      ((fr.session? p).bind fun ss => ss.firstCall? fr.call).map (·.function)) =
        some .callContract := by
    decide +kernel
  obtain ⟨fr, hfr, hrun⟩ := Option.bind_eq_some_iff.mp hrun
  obtain ⟨h, hh, hfunction⟩ := Option.map_eq_some_iff.mp hrun
  obtain ⟨ss, hs, hh⟩ := Option.bind_eq_some_iff.mp hh
  have hn := Frame.nests_of_firstNested? hfr
  obtain ⟨rootSession, hroot⟩ := hn.session
  have hlive : Frame.Live p root fr ss [(root, rootSession)] := .nested (.root hroot) hn hs
  have hcalls := ss.callsInvoked_of_firstCall? hh
  have hserves : fr.Serves p h := ⟨ss, hs, hcalls⟩
  have hreachable : p.Reachable (.hosting .mirror) := .start rfl
  obtain ⟨-, hframes, hactive⟩ := hreachable.nesting_bounded none { fuel := 100 } (by decide)
  obtain ⟨h', hm⟩ := hn
  have hdepth : fr.call.depth = 1 :=
    UInt32.toNat_inj.mp ((hframes 0 root .root).2.2.1 h' fr hm)
  obtain ⟨hrefused, hnone, -⟩ :=
    (hframes 1 fr (.nested .root hm)).2.2.2.2.1 h hserves hfunction hdepth
  exact ⟨fr, ss, rootSession, h, hlive, hserves, hdepth, hrefused, hnone,
    (hactive fr ss _ h hlive hcalls).1⟩

end MeteredContracts
