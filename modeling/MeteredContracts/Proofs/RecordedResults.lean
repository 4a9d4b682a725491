import MeteredContracts.Proofs.HostEffects
import MeteredContracts.Proofs.StorageHistory

namespace MeteredContracts

open Wasm (Cell)

namespace HostCall

variable {h : HostCall}

theorem run_setCallResult_eq (hf : h.function = .setCallResult) : h.run =
    (h.caller.setCallResult (h.word 0) (h.word 1) >>= fun _ => pure (.values [])) h.scene := by
  rw [run, hf]
  rfl

theorem run_setCallResult {bytes : Bytes} (hf : h.function = .setCallResult)
    (hg : h.given? 0 1 = some bytes) :
    h.run = (.ok (.values []), { h.scene with result := some bytes }) := by
  rw [run_setCallResult_eq hf, Caller.setCallResult, bind_assoc, read_bind hg]
  rfl

theorem given_of_setCallResult {r : Reply} (hf : h.function = .setCallResult)
    (hr : h.run.1 = .ok r) : ∃ bytes, h.given? 0 1 = some bytes := by
  rw [run_setCallResult_eq hf, Caller.setCallResult, bind_assoc] at hr
  cases hg : h.given? 0 1 with
  | some bytes => exact ⟨bytes, rfl⟩
  | none =>
    obtain ⟨e, he⟩ := read_bind_of_not_given hg _
    rw [he] at hr
    cases hr

theorem run_result (hl : h.function ∈ HostFunction.standard) (hf : h.function ≠ .setCallResult) :
    h.run.2.result = h.scene.result := by
  by_cases hc : h.function = .callContract
  · rw [h.run_callContract hc]
    cases h.commission with
    | error e => rfl
    | ok o =>
      dsimp only
      rw [o.carryOut_apply]
      split <;> rfl
  · have write (ptr : Int) (bs : Bytes) : (h.caller.write ptr bs).Keeps Scene.result := by
      intro s
      cases h.caller.writes ptr bs s with
      | done _ _ hw => rw [hw]; rfl
      | refused _ _ hw => rw [hw]
    exact HostFunction.keeps (f := Scene.result) hl hc h.caller (fun _ _ => rfl) (fun _ _ _ => rfl)
      (fun _ => write) (fun hs => absurd hs hf) h.args h.scene

def recording (h : HostCall) : List HostCall := if h.function = .setCallResult then [h] else []

theorem flatMap_recording (l : List HostCall) :
    l.flatMap recording = l.filter (·.function = .setCallResult) := by
  induction l with
  | nil => rfl
  | cons h l ih =>
    rw [List.flatMap_cons, ih, List.filter_cons, recording]
    by_cases hf : h.function = .setCallResult <;> simp [hf]

end HostCall

def Scene.Records (l : List HostCall) (s t : Scene) : Prop :=
  t.result = (l.getLast?.map (·.given? 0 1)).getD s.result

namespace Scene

theorem Records.of_result {l : List HostCall} {s t u : Scene} (h : Records l s t)
    (hu : u.result = t.result) : Records l s u := hu.trans h

theorem records_accumulates : Turn.Accumulates Records where
  guest h := h.result
  trans {l l' s t u} h h' := by
    unfold Records at h h' ⊢
    rw [h', List.getLast?_append]
    cases l'.getLast? with
    | some _ => rfl
    | none => exact h

theorem records_run {h : HostCall} (hl : h.function ∈ HostFunction.standard) {r : Reply}
    (hr : h.run.1 = .ok r) : Records h.recording h.scene h.run.2 := by
  unfold HostCall.recording
  by_cases hf : h.function = .setCallResult
  · obtain ⟨bytes, hg⟩ := HostCall.given_of_setCallResult hf hr
    rw [if_pos hf, HostCall.run_setCallResult hf hg]
    exact hg.symm
  · rw [if_neg hf]
    exact HostCall.run_result hl hf

end Scene

namespace Sandbox

variable {s s' : Sandbox} {function : Nat} {args : List Cell} {name : String} {payload : Bytes}
  {w w' : World} {h : HostCall}

theorem Calls.granted (hh : s.Calls function args w h) {results : List Cell}
    (hr : (s.run function args w).1 = .ok results) : ∃ r, h.run.1 = .ok r := by
  cases hrun : h.run.1 with
  | ok r => exact ⟨r, rfl⟩
  | error e =>
    obtain ⟨f, hf, -⟩ := run_of_refused hh hrun
    rw [hr] at hf
    cases hf

theorem CallsInvoked.granted (hh : s.CallsInvoked name payload w h) {bytes : Bytes}
    (hr : (s.invoke name payload w).1 = .ok bytes) : ∃ r, h.run.1 = .ok r := by
  rw [invoke_eq] at hr
  cases hh with
  | placing ha hh =>
    obtain ⟨f, -, he⟩ | ⟨results, -, reason, he⟩ | ⟨results, hrun, -⟩ :=
      s.placePayload_of_some payload w ha
    · rw [he] at hr
      cases hr
    · rw [he] at hr
      cases hr
    · exact hh.granted hrun
  | @serving place index s' w' hp he hh =>
    simp only [hp, he] at hr
    rcases hrun : s'.run index [.ofNat place] w' with ⟨f | results, s'', w''⟩
    · rw [hrun] at hr
      cases hr
    · exact hh.granted (congrArg Prod.fst hrun)

section

variable (hl : ∀ f ∈ s.box.links, f ∈ HostFunction.standard)

include hl

theorem run_records {results : List Cell} (hr : (s.run function args w).1 = .ok results) :
    Scene.Records ((s.hostCalls function args w).flatMap HostCall.recording) (s.scene w)
      ((s.run function args w).2.1.scene (s.run function args w).2.2) := by
  refine run_accumulates Scene.records_accumulates _ fun h hh => ?_
  obtain ⟨r, hok⟩ := hh.granted hr
  exact Scene.records_run (hl _ hh.caller.2.2) hok

theorem invoke_records {bytes : Bytes} (hr : (s.invoke name payload w).1 = .ok bytes) :
    ∃ t, Scene.Records ((s.placingCalls payload w ++ s.servingCalls name payload w).flatMap
      HostCall.recording) (s.scene w) t ∧ bytes = t.result.getD [] := by
  have hhost (h : HostCall) (hh : s.CallsInvoked name payload w h) :
      Scene.Records h.recording h.scene h.run.2 := by
    obtain ⟨r, hok⟩ := hh.granted hr
    exact Scene.records_run (hl _ hh.caller.2.2) hok
  have hplace := placePayload_accumulates Scene.records_accumulates HostCall.recording hhost
  rw [invoke_eq] at hr
  rw [List.flatMap_append]
  unfold servingCalls
  rcases hp : s.placePayload payload w with ⟨e | place, s', w'⟩
  · rw [hp] at hr
    cases hr
  · rw [hp] at hr hplace
    have hl' : ∀ f ∈ s'.box.links, f ∈ HostFunction.standard := by rwa [(placed_box hp).1]
    dsimp only at hr ⊢
    cases he : s'.entry? name with
    | none =>
      rw [he] at hr
      cases hr
    | some index =>
      rw [he] at hr
      dsimp only at hr ⊢
      rcases hrun : s'.run index [.ofNat place] w' with ⟨f | results, s'', w''⟩
      · rw [hrun] at hr
        cases hr
      · have hserve := run_records hl' (congrArg Prod.fst hrun)
        rw [hrun] at hr hserve
        cases hr
        exact ⟨s''.scene w'', Scene.records_accumulates.trans hplace hserve, rfl⟩

end

def startCalls (s : Sandbox) (w : World) : List HostCall :=
  match s.box.module.start with
  | none => []
  | some function => s.hostCalls function [] w

theorem startCalls_sandbox (hh : h ∈ s.startCalls w) : h.caller.sandbox = s.id := by
  unfold startCalls at hh
  split at hh
  · cases hh
  · exact (mem_hostCalls.mp hh).caller.1

theorem runStart_records (hl : ∀ f ∈ s.box.links, f ∈ HostFunction.standard)
    (hr : s.runStart w = (.ok s', w')) :
    Scene.Records ((s.startCalls w).flatMap HostCall.recording) (s.scene w) (s'.scene w') ∧
      ∀ h ∈ s.startCalls w, ∃ r, h.run.1 = .ok r := by
  unfold runStart at hr
  unfold startCalls
  cases hm : s.box.module.start with
  | none =>
    simp only [hm] at hr
    cases hr
    exact ⟨Scene.records_accumulates.guest (.refl _), List.forall_mem_nil _⟩
  | some function =>
    simp only [hm] at hr
    rcases hrun : s.run function [] w with ⟨f | results, s'', w''⟩
    · rw [hrun] at hr
      cases hr
    · have hok : (s.run function [] w).1 = .ok results := congrArg Prod.fst hrun
      have hrecords := run_records hl hok
      rw [hrun] at hr hrecords
      cases hr
      dsimp only
      exact ⟨hrecords, fun h hh => (mem_hostCalls.mp hh).granted hok⟩

end Sandbox

namespace Frame

variable (p : Platform) (fr : Frame)

def startCalls : List HostCall :=
  match fr.loaded p with
  | (.error _, _) => []
  | (.ok a, w) =>
    match fr.fresh p a w with
    | .error _ => []
    | .ok s => s.startCalls { w with nextSandbox := w.nextSandbox + 1 }

def guestCalls : List HostCall := fr.startCalls p ++ fr.hostCalls p

def lastRecording? : Option HostCall :=
  ((fr.guestCalls p).filter (·.function = .setCallResult)).getLast?

variable {p fr} {h : HostCall} {ss : Session}

theorem mem_startCalls : h ∈ fr.startCalls p ↔ fr.Starts p h := by
  unfold startCalls Starts
  rcases hl : fr.loaded p with ⟨e | a, w⟩
  · simp
  · cases hf : fr.fresh p a w with
    | error e => simp [hf]
    | ok s =>
      unfold Sandbox.startCalls
      cases hm : s.box.module.start <;> simp [hf, hm, Sandbox.mem_hostCalls]

theorem mem_guestCalls : h ∈ fr.guestCalls p ↔ fr.Starts p h ∨ fr.Serves p h := by
  rw [guestCalls, List.mem_append, mem_startCalls, mem_hostCalls]

theorem session_records (hs : fr.session? p = some ss) :
    ∃ s : Scene, s.result = none ∧
      Scene.Records ((fr.startCalls p).flatMap HostCall.recording) s (ss.sandbox.scene ss.world) ∧
      ∀ h ∈ fr.startCalls p, h.caller.sandbox = ss.sandbox.id ∧ ∃ r, h.run.1 = .ok r := by
  obtain ⟨a, w, s, s', w', hl, hf, hb, rfl⟩ := session?_eq_some hs
  obtain ⟨hrecords, hgranted⟩ := Sandbox.runStart_records (fresh_sandbox hf).links hb
  have hid : s'.id = s.id := congrArg Box.id (started_sandbox hb).1
  have hstart : fr.startCalls p = s.startCalls { w with nextSandbox := w.nextSandbox + 1 } := by
    simp only [startCalls, hl, hf]
  rw [hstart]
  exact ⟨s.scene { w with nextSandbox := w.nextSandbox + 1 }, (fresh_sandbox hf).result,
    hrecords.of_result rfl,
    fun h hh => ⟨(Sandbox.startCalls_sandbox hh).trans hid.symm, hgranted h hh⟩⟩

theorem run_records {bytes : Bytes} (hr : (p.run fr).1.output = .ok bytes) :
    ∃ ss, fr.session? p = some ss ∧
      (∀ h ∈ fr.guestCalls p, h.caller.sandbox = ss.sandbox.id ∧ ∃ r, h.run.1 = .ok r) ∧
      ∃ s t : Scene, s.result = none ∧
        Scene.Records ((fr.guestCalls p).flatMap HostCall.recording) s t ∧
        bytes = t.result.getD [] := by
  have hc := p.course fr
  generalize p.run fr = r at hc hr
  cases hc with
  | unloaded | unfit | unstarted => cases hr
  | @served a w s s' w' ss r hl hf hb hs _ hinvoke =>
    rw [← hinvoke] at hr
    obtain ⟨s, hnone, hstart, hgranted⟩ := session_records hs
    obtain ⟨t, hinvoke, hbytes⟩ := Sandbox.invoke_records (session_box hs).2 hr
    refine ⟨ss, hs, fun h hh => ?_, s, t, hnone, ?_, hbytes⟩
    · obtain hh | hh := List.mem_append.mp hh
      · exact hgranted h hh
      · obtain ⟨ss', hs', hh⟩ := mem_hostCalls.mp hh
        obtain rfl : ss = ss' := Option.some.inj (hs.symm.trans hs')
        exact ⟨hh.caller.1, hh.granted hr⟩
    · rw [guestCalls, List.flatMap_append]
      simp only [hostCalls, hs]
      exact Scene.records_accumulates.trans hstart hinvoke

end Frame

/-- A call that succeeds returns the bytes that its guest named when it last recorded a result, as
they were then, or none if it never did. These are the requests of the call's own sandbox, from its
start function on; whatever else the guest asks for, nested calls among it, leaves the record as it
is. -/
theorem Platform.returns_last_recording {p : Platform} {fr : Frame} {bytes : Bytes}
    (hr : (p.run fr).1.output = .ok bytes) :
    (∀ h, fr.lastRecording? p = some h → h.given? 0 1 = some bytes) ∧
    (fr.lastRecording? p = none → bytes = []) ∧
    (∀ h, h ∈ fr.guestCalls p ↔ fr.Starts p h ∨ fr.Serves p h) ∧
    (∃ ss, fr.session? p = some ss ∧ ∀ h ∈ fr.guestCalls p, h.caller.sandbox = ss.sandbox.id) ∧
    ∀ h ∈ fr.guestCalls p, h.function ≠ .setCallResult → h.run.2.result = h.scene.result := by
  obtain ⟨ss, hs, hgranted, s, t, hnone, hrecords, hbytes⟩ := Frame.run_records hr
  rw [HostCall.flatMap_recording] at hrecords
  refine ⟨fun h hlast => ?_, fun hlast => ?_, fun h => Frame.mem_guestCalls,
    ⟨ss, hs, fun h hh => (hgranted h hh).1⟩, fun h hh hf => ?_⟩
  · obtain ⟨hh, hf⟩ := List.mem_filter.mp (List.mem_of_getLast? hlast)
    obtain ⟨r, hok⟩ := (hgranted h hh).2
    obtain ⟨given, hg⟩ := HostCall.given_of_setCallResult (of_decide_eq_true hf) hok
    have hresult : t.result = h.given? 0 1 := by
      rw [hrecords, show List.getLast? _ = _ from hlast]
      rfl
    rw [hbytes, hresult, hg]
    rfl
  · have hresult : t.result = s.result := by
      rw [hrecords, show List.getLast? _ = _ from hlast]
      rfl
    rw [hbytes, hresult, hnone]
    rfl
  · obtain hh | hh := Frame.mem_guestCalls.mp hh
    · exact HostCall.run_result hh.caller.2 hf
    · exact HostCall.run_result hh.caller.2 hf

/-- A module that records a result in its start function and again on the way to a place for the
payload, which is then put over the bytes. -/
def Wasm.Module.reporter : Wasm.Module where
  imports := [⟨"contract", "set_call_result", .function HostFunction.setCallResult.type⟩]
  functions := #[⟨⟨[], []⟩, [], [.const .i32 0, .const .i32 1, .call 0]⟩,
    ⟨⟨[.i32], [.i32]⟩, [], [.const .i32 0, .const .i32 2, .call 0, .const .i32 0]⟩,
    ⟨⟨[.i32], []⟩, [], []⟩]
  memory := some ⟨1, none⟩
  exports := [⟨"memory", .memory, 0⟩, ⟨"alloc", .function, 2⟩, ⟨"", .function, 3⟩]
  start := some 1
  data := [⟨.const .i32 0, [7, 8]⟩]

def Frame.reporting : Frame :=
  Platform.root ⟨{}, none, {}⟩ none { fuel := 100 } (.hosting .reporter)

set_option maxRecDepth 4000 in
theorem Platform.run_reporting :
    ((⟨{}, none, {}⟩ : Platform).run .reporting).1.output = .ok [7, 8] := by
  decide +kernel

theorem Platform.returns_last_recording_of_a_reporter :
    ((⟨{}, none, {}⟩ : Platform).run .reporting).1.output = .ok [7, 8] ∧
      ∃ h, Frame.reporting.lastRecording? ⟨{}, none, {}⟩ = some h ∧ h.given? 0 1 = some [7, 8] := by
  obtain ⟨hlast, hnever, -⟩ := returns_last_recording run_reporting
  refine ⟨run_reporting, ?_⟩
  cases hh : Frame.reporting.lastRecording? ⟨{}, none, {}⟩ with
  | none => cases hnever hh
  | some h => exact ⟨h, rfl, hlast h hh⟩

end MeteredContracts
