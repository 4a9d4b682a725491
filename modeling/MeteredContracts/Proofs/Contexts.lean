import MeteredContracts.Proofs.CallStack
import MeteredContracts.Proofs.GuestMemory

namespace MeteredContracts

open Wasm (Cell Memory)

theorem Scene.read_eq_ok {s : Scene} {c : Caller} {ptr len : Int} {bytes : Bytes}
    (h : s.read c ptr len = .ok bytes) :
    0 ≤ ptr ∧ 0 ≤ len ∧ s.guest.memory.read? ptr.toNat len.toNat = some bytes := by
  unfold read range at h
  split at h
  · split at h
    · cases h
    next hr =>
      split at hr
      · cases hr
      next hptr =>
        split at hr
        · cases hr
        next hlen =>
          dsimp only at hr
          split at hr
          · cases hr
          next hfits =>
            refine ⟨Int.not_lt.mp hptr, Int.not_lt.mp hlen, ?_⟩
            unfold Memory.read? at h ⊢
            rw [if_pos (Nat.not_lt.mp hfits)] at h ⊢
            cases h
            rfl
  · cases h

theorem Caller.readAddress_fst_eq_ok (c : Caller) {s : Scene} {ptr : Int} {a : Address}
    (h : (c.readAddress ptr s).1 = .ok a) : (c.read ptr 33 s).1 = .ok a.bytes := by
  obtain ⟨bytes, hbytes, h⟩ := (c.reads_read ptr 33).bind_fst_eq_ok h
  by_cases hlength : bytes.length = 33
  · have ha : Address.ofBytes? bytes = some ⟨bytes, hlength⟩ := dif_pos hlength
    rw [ha] at h
    cases h
    exact hbytes
  · have ha : Address.ofBytes? bytes = none := dif_neg hlength
    rw [ha] at h
    cases h

namespace HostCall

variable (h : HostCall)

def word (i : Nat) : Int := (h.args.getD i 0).int32

def named (ptr len : Int) : Option Bytes :=
  if 0 ≤ ptr ∧ 0 ≤ len then h.scene.guest.memory.read? ptr.toNat len.toNat else none

variable {h}

theorem named_of_read {ptr len : Int} {bytes : Bytes}
    (hr : (h.caller.read ptr len h.scene).1 = .ok bytes) : h.named ptr len = some bytes := by
  obtain ⟨hptr, hlen, hread⟩ := Scene.read_eq_ok (HostM.look_fst_eq_ok hr)
  rw [named, if_pos ⟨hptr, hlen⟩, hread]

theorem commission_named {o : Commission} (ho : h.commission = .ok o) :
    h.named (h.word 0) 33 = some o.target.bytes ∧
      h.named (h.word 3) (h.word 4) = some o.params := by
  obtain ⟨-, -, htarget, -, hparams, -⟩ := h.caller.commission_parts ho
  exact ⟨named_of_read (h.caller.readAddress_fst_eq_ok htarget), named_of_read hparams⟩

end HostCall

theorem Platform.delegate_maxDepth (p : Platform) (levels : Nat) :
    (p.delegate levels).maxDepth = p.config.execution.maxCallDepth := by
  cases levels <;> rfl

namespace Frame

variable {p : Platform} {root fr fr' : Frame} {h : HostCall}

theorem Serves.lookup (hh : fr.Serves p h) (hw : fr.world.Tidy) :
    Registry.lookup h.scene.world.registry h.caller.sandbox =
      .ok { fr.call with sandbox := some h.caller.sandbox } := by
  obtain ⟨ss, hs, hh⟩ := hh
  obtain ⟨hentries, htidy⟩ := session_registry hs hw
  have hmem : ss.entry fr.call ∈ h.scene.world.registry.entries := by
    rw [(serves_registry hs hh htidy).1, hentries]
    exact List.mem_cons_self
  rw [hh.caller.1]
  unfold Registry.lookup
  rw [h.scene.world.registry.get?_of_mem hmem]

theorem Serves.sponsor_eq {o : Commission} (hh : fr.Serves p h) (hw : fr.world.Tidy)
    (ho : h.commission = .ok o) : o.sponsor = { fr.call with sandbox := some h.caller.sandbox } :=
  Except.ok.inj ((h.caller.commission_fst_eq_ok ho).1.symm.trans (hh.lookup hw))

theorem Serves.depth_lt {o : Commission} (hh : fr.Serves p h) (hw : fr.world.Tidy)
    (ho : h.commission = .ok o) : fr.call.depth < p.config.execution.maxCallDepth := by
  obtain ⟨-, hdelegate, hdepth⟩ := h.caller.commission_fst_eq_ok ho
  rw [← Option.some.inj (hh.caller.1.symm.trans hdelegate), p.delegate_maxDepth,
    hh.sponsor_eq hw ho] at hdepth
  exact hdepth

theorem Makes.call_eq (hm : fr.Makes p h fr') (hw : fr.world.Tidy) :
    (∃ function fuel value, fr'.call =
      fr.call.nested fr'.call.contract function fr'.call.params fuel value) ∧
      fr'.call.depth.toNat = fr.call.depth.toNat + 1 ∧
      h.named (h.word 0) 33 = some fr'.call.contract.bytes ∧
      h.named (h.word 3) (h.word 4) = some fr'.call.params := by
  cases hm with
  | @intro levels o w hl hh hf ho hfuel ht =>
    have hsponsor := hh.sponsor_eq hw ho
    have hcall : o.call = fr.call.nested o.target o.function o.params (.ofNat o.fuel)
        (.ofNat o.value) := by
      rw [Commission.call, hsponsor]
      rfl
    refine ⟨⟨_, _, _, hcall⟩, ?_, HostCall.commission_named ho⟩
    show o.call.depth.toNat = _
    rw [hcall]
    show (fr.call.depth + 1).toNat = _
    -- the depth is below the limit on it, so one more level does not wrap around
    have hlt := UInt32.lt_iff_toNat_lt.mp (hh.depth_lt hw ho)
    have hmax := p.config.execution.maxCallDepth.toNat_lt
    rw [UInt32.toNat_add, UInt32.toNat_one]
    exact Nat.mod_eq_of_lt (by omega)

inductive Below (p : Platform) (root : Frame) : Nat → Frame → Prop
  | root : Below p root 0 root
  | nested {n : Nat} {fr fr' : Frame} {h : HostCall} :
      Below p root n fr → fr.Makes p h fr' → Below p root (n + 1) fr'

theorem Below.tree {n : Nat} (hb : root.Below p n fr) :
    Relation.ReflTransGen (Nests p) root fr := by
  induction hb with
  | root => exact .refl
  | nested _ hm ih => exact ih.tail ⟨_, hm⟩

theorem Below.levels_eq {n : Nat} (hb : root.Below p n fr) : fr.levels + n = root.levels := by
  induction hb with
  | root => rfl
  | @nested n fr fr' h _ hm ih =>
    cases hm with
    | @intro levels o w hl =>
      show levels + (n + 1) = root.levels
      omega

theorem Below.inherits {n : Nat} (hb : root.Below p n fr) (hw : root.world.Tidy) :
    fr.call.depth.toNat = root.call.depth.toNat + n ∧ fr.call.height = root.call.height ∧
      fr.call.timestamp = root.call.timestamp ∧ fr.call.action = root.call.action := by
  -- from the root down: each frame has these from the one that makes it
  induction hb with
  | root => exact ⟨rfl, rfl, rfl, rfl⟩
  | nested hb hm ih =>
    obtain ⟨⟨function, fuel, value, hcall⟩, hdepth, -⟩ := hm.call_eq (tree_tidy hw hb.tree)
    obtain ⟨ihdepth, ih⟩ := ih
    refine ⟨by omega, ?_⟩
    rw [hcall]
    exact ih

theorem Below.levels_of_commission {n : Nat} {o : Commission} (hb : root.Below p n fr)
    (hw : root.world.Tidy)
    (hroot : root.levels = p.config.execution.maxCallDepth.toNat - root.call.depth.toNat)
    (hh : fr.Serves p h) (ho : h.commission = .ok o) : ∃ levels, fr.levels = levels + 1 := by
  have hdepth := UInt32.lt_iff_toNat_lt.mp (hh.depth_lt (tree_tidy hw hb.tree) ho)
  have hinherits := (hb.inherits hw).1
  have hlevels := hb.levels_eq
  exact Nat.exists_eq_succ_of_ne_zero (by omega)

def entered? (p : Platform) (fr : Frame) : Option (Cell × Memory) :=
  (fr.session? p).bind fun ss =>
    ss.sandbox.entered? fr.call.function fr.call.payload ss.world

theorem entered?_memory {ptr : Cell} {memory : Memory} (h : fr.entered? p = some (ptr, memory)) :
    memory.read? ptr.toNat (Context.size + fr.call.params.length) =
      some (fr.call.context.encode ++ fr.call.params) := by
  obtain ⟨ss, -, h⟩ := Option.bind_eq_some_iff.mp h
  have hread := Sandbox.entered?_memory fr.call.function h
  have hlength : fr.call.payload.length = Context.size + fr.call.params.length := by
    rw [Call.payload, Context.payload, List.length_append, Context.length_encode]
  rw [hlength] at hread
  exact hread

theorem entered?_of_run_eq_ok {bytes : Bytes} (h : (p.run fr).1.output = .ok bytes) :
    ∃ ptr memory, fr.entered? p = some (ptr, memory) := by
  have hc := p.course fr
  generalize p.run fr = r at hc h
  cases hc with
  | unloaded => cases h
  | unfit => cases h
  | unstarted => cases h
  | served _ _ _ hs _ hr =>
    rw [← hr] at h
    rw [entered?, hs]
    exact Sandbox.entered?_of_invoke_eq_ok _ h

end Frame

/-- When the function of a call begins, as it has in every call that succeeds, it finds in memory
who is called and by whom, the fields of the block as the first call had them, and the parameters.
A caller names the account and the parameters in its own memory; the actor is always the caller
itself. -/
theorem Platform.Reachable.contexts_authentic {p : Platform} {w : World} (hw : p.Reachable w)
    (cancel : Cancellation) (call : Call) :
    p.RunsFrames ∧ ∀ n fr, (p.root cancel call w).Below p n fr →
      fr.call.depth.toNat = call.depth.toNat + n ∧
      (∀ bytes, (p.run fr).1.output = .ok bytes →
        ∃ ptr memory, fr.entered? p = some (ptr, memory)) ∧
      (∀ ptr memory, fr.entered? p = some (ptr, memory) →
        memory.read? ptr.toNat (Context.size + fr.call.params.length) =
          some (Context.encode ⟨fr.call.contract, fr.call.actor, call.height, call.timestamp,
            call.action⟩ ++ fr.call.params)) ∧
      (n = 0 → fr.call.actor = call.actor ∧ fr.call.params = call.params) ∧
      ∀ h fr', fr.Makes p h fr' →
        fr'.call.actor = fr.call.contract ∧
        h.named (h.word 0) 33 = some fr'.call.contract.bytes ∧
        h.named (h.word 3) (h.word 4) = some fr'.call.params := by
  refine ⟨p.runsFrames, fun n fr hb => ?_⟩
  obtain ⟨hdepth, hheight, htimestamp, haction⟩ := hb.inherits hw.tidy
  refine ⟨hdepth, fun bytes => Frame.entered?_of_run_eq_ok, fun ptr memory hentered => ?_, ?_,
    fun h fr' hm => ?_⟩
  · have hread := Frame.entered?_memory hentered
    rw [Call.context, hheight, htimestamp, haction] at hread
    exact hread
  · rintro rfl
    cases hb
    exact ⟨rfl, rfl⟩
  · obtain ⟨⟨function, fuel, value, hcall⟩, -, hcontract, hparams⟩ :=
      hm.call_eq (Frame.tree_tidy hw.tidy hb.tree)
    refine ⟨?_, hcontract, hparams⟩
    rw [hcall]
    rfl

set_option maxRecDepth 4000 in
theorem Platform.Reachable.contexts_authentic_to_a_listener :
    let p : Platform := ⟨{}, none, {}⟩
    let call : Call := { actor := .second, fuel := 100, height := 7, timestamp := 8 }
    let root := p.root none call .patronage
    ∃ h fr ptr memory, root.Makes p h fr ∧ fr.entered? p = some (ptr, memory) ∧
      fr.call.depth.toNat = 1 ∧
      memory.read? ptr.toNat 116 =
        some (Context.encode ⟨.second, .zero, 7, 8, .zero⟩ ++ [1, 0]) := by
  intro p call root
  have hrun : (root.firstNested? p).bind (fun fr =>
      (fr.entered? p).map fun _ => (fr.call.contract, fr.call.params)) =
        some (.second, [1, 0]) := by
    decide +kernel
  obtain ⟨fr, hfr, hrun⟩ := Option.bind_eq_some_iff.mp hrun
  obtain ⟨⟨ptr, memory⟩, hentered, hcall⟩ := Option.map_eq_some_iff.mp hrun
  obtain ⟨hcontract, hparams⟩ := Prod.mk.inj hcall
  obtain ⟨h, hm⟩ := Frame.nests_of_firstNested? hfr
  have hreachable : p.Reachable .patronage := .start rfl
  obtain ⟨-, hauthentic⟩ := hreachable.contexts_authentic none call
  obtain ⟨hdepth, -, hmemory, -⟩ := hauthentic 1 fr (.nested .root hm)
  have hactor := ((hauthentic 0 root .root).2.2.2.2 h fr hm).1
  have hread := hmemory ptr memory hentered
  rw [hparams, hcontract, hactor] at hread
  exact ⟨h, fr, ptr, memory, hm, hentered, hdepth, hread⟩

end MeteredContracts
