import MeteredContracts.Proofs.Contexts
import MeteredContracts.Proofs.PreExecution

namespace MeteredContracts

inductive HostError.Miswired : HostError → Prop
  | unregistered (sandbox : Nat) : Miswired (.unknownCall sandbox)
  | undelegated :
      Miswired (.invalidArgument "nested calls are not available in this sandbox")

namespace HostError

theorem append_ne {start text : String} (h : ¬start.toList <+: text.toList) (rest : String) :
    start ++ rest ≠ text := by
  rintro rfl
  exact h ⟨rest.toList, String.toList_append.symm⟩

theorem miswired_invalidArgument {reason : String} : (invalidArgument reason).Miswired ↔
    reason = "nested calls are not available in this sandbox" := by
  constructor
  · intro h
    generalize he : invalidArgument reason = e at h
    cases h with
    | unregistered => cases he
    | undelegated => exact invalidArgument.inj he
  · rintro rfl
    exact .undelegated

end HostError

namespace Failure

theorem Raised.invalidArgument {reason : String} (h : Raised (.host (.invalidArgument reason))) :
    reason = "nested call result too large" := by
  generalize hf : Failure.host (.invalidArgument reason) = f at h
  cases h with
  | trap | other | missing | memory => cases hf
  | tooLarge => exact HostError.invalidArgument.inj (host.inj hf)

theorem Raised.not_miswired {e : HostError} (h : Raised (.host e)) : ¬e.Miswired := by
  intro he
  cases he with
  | unregistered => cases h
  | undelegated => exact absurd h.invalidArgument (by decide)

end Failure

theorem Caller.Refusal.not_miswired {c : Caller} {r : Registry} {e : HostError} {call : Call}
    {delegate : Delegate} (he : c.Refusal r e) (hr : Registry.lookup r c.sandbox = .ok call)
    (hd : c.delegate = some delegate) : ¬e.Miswired := by
  cases he with
  | unregistered hl =>
    rw [hr] at hl
    cases hl
  | undelegated hnone =>
    rw [hd] at hnone
    cases hnone
  | tooDeep | noMemory | memory | ledger => exact nofun
  | text reason =>
    rw [HostError.miswired_invalidArgument]
    exact HostError.append_ne (by decide) reason
  | negative what n =>
    rw [HostError.miswired_invalidArgument]
    show "negative " ++ what ++ " " ++ toString n ≠ _
    rw [String.append_assoc, String.append_assoc]
    exact HostError.append_ne (by decide) _

namespace Frame

variable {p : Platform} {fr : Frame} {h : HostCall} {ss : Session}

theorem Serves.sandbox_eq (hs : fr.session? p = some ss) (hh : fr.Serves p h) :
    h.caller.sandbox = ss.sandbox.id := by
  obtain ⟨ss', hs', hh⟩ := hh
  rw [hs] at hs'
  cases hs'
  exact hh.caller.1

theorem Serves.not_miswired (hh : fr.Serves p h) (hw : fr.world.Tidy) {e : HostError}
    (he : h.run.1 = .error (.host e)) : ¬e.Miswired := by
  obtain ⟨hd, hf⟩ := hh.caller
  obtain ⟨⟨e', hee', hrefusal⟩, -⟩ | ⟨hcall, -⟩ := HostCall.run_fst_eq_error hf he
  · cases hee'
    exact hrefusal.not_miswired (hh.lookup hw) hd
  · cases hcall

theorem run_eq_host (hs : fr.session? p = some ss) {e : HostError}
    (he : (p.run fr).1.output = .error (.host e)) :
    Failure.Raised (.host e) ∨ ∃ h, fr.Serves p h ∧ h.run.1 = .error (.host e) := by
  rw [run_of_session hs, Session.finish_eq] at he
  obtain hraised | ⟨h, hh, hrun⟩ := Sandbox.invoke_eq_host (session_box hs).2 he
  · exact .inl hraised
  · exact .inr ⟨h, ⟨ss, hs, hh⟩, hrun⟩

theorem run_not_miswired (hs : fr.session? p = some ss) (hw : fr.world.Tidy) {e : HostError}
    (he : (p.run fr).1.output = .error (.host e)) : ¬e.Miswired := by
  obtain hraised | ⟨h, hh, hrun⟩ := run_eq_host hs he
  · exact hraised.not_miswired
  · exact hh.not_miswired hw hrun

theorem exported_of_placed (hs : fr.session? p = some ss) {place : Nat} {s : Sandbox} {w : World}
    (hp : ss.sandbox.placePayload fr.call.payload ss.world = (.ok place, s, w)) :
    (s.box.module.exportedFunction? fr.call.function).isSome := by
  rw [(Sandbox.placed_box hp).1]
  exact session_entry hs

end Frame

/-- Once a call has its sandbox, the sandbox is registered for that call and has someone to make
its calls, whenever its guest turns to the host; neither the host nor the call fails for want of
that. The function of the call is not missing either, where it is about to be called. -/
theorem Platform.Reachable.never_miswired {p : Platform} {w : World} (hw : p.Reachable w)
    (cancel : Cancellation) (call : Call) (fr : Frame)
    (hfr : Relation.ReflTransGen (Frame.Nests p) (p.root cancel call w) fr) (ss : Session)
    (hs : fr.session? p = some ss) :
    (∀ h, fr.Serves p h →
      h.caller.sandbox = ss.sandbox.id ∧
        Registry.lookup h.scene.world.registry ss.sandbox.id =
          .ok { fr.call with sandbox := some ss.sandbox.id } ∧
        h.caller.delegate = some (p.delegate fr.levels) ∧
        ∀ e, h.run.1 = .error (.host e) → ¬e.Miswired) ∧
      (∀ e, (p.run fr).1.output = .error (.host e) → ¬e.Miswired) ∧
      (∀ place s v, ss.sandbox.placePayload fr.call.payload ss.world = (.ok place, s, v) →
        (s.box.module.exportedFunction? fr.call.function).isSome) ∧
      ∀ name, (p.run fr).1.output ≠ .error (.exportMissing name) := by
  have htidy := Frame.tree_tidy hw.tidy hfr
  refine ⟨fun h hh => ?_, fun e => Frame.run_not_miswired hs htidy,
    fun place s v => Frame.exported_of_placed hs, fun name ho => ?_⟩
  · have hsandbox := hh.sandbox_eq hs
    have hlookup := hh.lookup htidy
    rw [hsandbox] at hlookup
    exact ⟨hsandbox, hlookup, hh.caller.1, fun e => hh.not_miswired htidy⟩
  · -- a missing function is told of only where there has been no sandbox
    obtain ⟨hnone, -⟩ | ⟨hnone, -⟩ | ⟨-, hpre, -⟩ := Frame.run_eq_error ho
    · rw [hs] at hnone
      cases hnone
    · rw [hs] at hnone
      cases hnone
    · cases hpre

def Wasm.Module.blunderer : Wasm.Module where
  imports := [⟨"contract", "call_contract", .function HostFunction.callContract.type⟩]
  functions := #[⟨⟨[.i32], [.i32]⟩, [], [.const .i32 0]⟩,
    ⟨⟨[.i32], []⟩, [], [.const .i32 0, .const .i32 0, .const .i32 0, .const .i32 0, .const .i32 0,
      .const .i64 (-1), .const .i64 0, .call 0, .drop]⟩]
  memory := some ⟨1, none⟩
  exports := [⟨"memory", .memory, 0⟩, ⟨"alloc", .function, 1⟩, ⟨"", .function, 2⟩]

set_option maxRecDepth 4000 in
theorem Platform.Reachable.never_miswired_for_a_blunderer :
    let p : Platform := ⟨{}, none, {}⟩
    let root := p.root none { fuel := 100 } (.hosting .blunderer)
    ∃ ss h e, root.session? p = some ss ∧ root.Serves p h ∧ h.run.1 = .error (.host e) ∧
      Registry.lookup h.scene.world.registry ss.sandbox.id =
        .ok { root.call with sandbox := some ss.sandbox.id } ∧
      (p.run root).1.output = .error (.host e) ∧ ¬e.Miswired := by
  intro p root
  have hrun : (p.run root).1.output =
      .error (.host (.invalidArgument "negative fuel budget -1")) := by
    decide +kernel
  obtain ⟨-, hpre, -⟩ | ⟨-, ⟨reason, hreason⟩, -⟩ | ⟨hs, -⟩ := Frame.run_eq_error hrun
  · cases hpre
  · cases hreason
  · obtain ⟨ss, hs⟩ := Option.isSome_iff_exists.mp hs
    have hreachable : p.Reachable (.hosting .blunderer) := .start rfl
    obtain ⟨hserves, hfails, -⟩ :=
      hreachable.never_miswired none { fuel := 100 } root .refl ss hs
    obtain hraised | ⟨h, hh, hrefused⟩ := Frame.run_eq_host hs hrun
    · exact absurd hraised.invalidArgument (by decide)
    · exact ⟨ss, h, _, hs, hh, hrefused, (hserves h hh).2.1, hrun, hfails _ hrun⟩

end MeteredContracts
