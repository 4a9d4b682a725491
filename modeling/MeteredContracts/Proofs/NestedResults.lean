import MeteredContracts.Proofs.Cells
import MeteredContracts.Proofs.Commission
import MeteredContracts.Proofs.GuestWrites

namespace MeteredContracts

open Wasm (Cell Machine)

def Wasm.Machine.GoesOnWith (p : Machine) (r : Cell) (m : Machine) : Prop :=
  m.active = { p.active with operands := r :: p.active.operands } ∧ m.callers = p.callers

structure Delivery.ArrivesAt (d : Delivery) (place : Int32) (m : Machine) : Prop where
  nonneg : 0 ≤ place.toInt
  short : d.bytes.length ≤ Int32.maxValue.toInt
  fits : place.toInt.toNat + d.bytes.length ≤ m.state.memory.size
  bytes : m.state.memory.read? place.toInt.toNat d.bytes.length = some d.bytes
  active : m.active = { d.active with
    operands := .ofInt64 (packRange place.toInt d.bytes.length) :: d.active.operands }
  callers : m.callers = d.callers

namespace Turn

def deliveries : Turn → List Delivery
  | .step _ deliveries _ _ => deliveries
  | .ended .. => []

def next? : Turn → Option Machine
  | .step (.next m) .. => some m
  | _ => none

def paused? (b : Box) : Turn → Option Machine
  | .step s .. => some (pause b s).1
  | .ended .. => none

variable (b : Box) (delegate : Option Delegate)

def Returns (t : Turn) (m : Machine) : Prop :=
  ∃ n, (∀ k < n, t.deliveries.length < ((advance b delegate)^[k + 1] t).deliveries.length) ∧
    ((advance b delegate)^[n + 1] t).deliveries.length = t.deliveries.length ∧
    ((advance b delegate)^[n + 1] t).next? = some m

inductive Delivers (t t' : Turn) : Prop
  | keeps (h : t.deliveries <:+ t'.deliveries)
  | arrives (d : Delivery) (place : Int32) (m : Machine)
      (deliveries : t.deliveries = d :: t'.deliveries) (next : t'.next? = some m)
      (h : d.ArrivesAt place m)
  | ends (deliveries : t'.deliveries = []) (next : t'.next? = none)

theorem answer_delivers (s : Wasm.Step) (m : Machine) (function : Nat) (args : List Cell)
    (deliveries : List Delivery) (result : Option Bytes) (w w' : World) :
    Delivers (.step s deliveries result w)
      (answer b delegate m function args deliveries result w') := by
  unfold answer
  dsimp only
  split
  · exact .ends rfl rfl
  · split
    · exact .ends rfl rfl
    · exact .keeps (List.suffix_refl deliveries)
    · split
      · exact .ends rfl rfl
      · exact .keeps (List.suffix_cons _ deliveries)

theorem deliver_delivers (s : Wasm.Step) (m : Machine) (d : Delivery) (place : Int32)
    (deliveries : List Delivery) (result : Option Bytes) (w w' : World) :
    Delivers (.step s (d :: deliveries) result w)
      (deliver b delegate m d place.toInt deliveries result w') := by
  unfold deliver
  dsimp only
  split
  · exact .ends rfl rfl
  next scene hw =>
    obtain ⟨hfits, hshort, rfl⟩ := Scene.write_eq_ok hw
    have hwritten := hfits.written
    exact .arrives d place _ rfl rfl
      { nonneg := hfits.2.1
        short := hshort
        fits := hwritten.size.symm ▸ hwritten.fits
        bytes := hwritten.inside
        active := rfl
        callers := rfl }

theorem advance_delivers (t : Turn) : t.Delivers (advance b delegate t) := by
  cases t with
  | ended how scene => exact .ends rfl rfl
  | step s deliveries result w =>
    rw [advance_step]
    unfold react
    dsimp only
    split
    · exact .ends rfl rfl
    · exact answer_delivers b delegate s _ _ _ deliveries result w _
    · split
      · exact .ends rfl rfl
      · exact deliver_delivers b delegate s _ _ _ _ result w _

variable {b delegate} {t t' : Turn} {m : Machine} {d : Delivery} {ds : List Delivery}

theorem Delivers.suffix (h : t.Delivers t') (hd : ds <:+ t.deliveries)
    (hl : ds.length ≤ t'.deliveries.length) : ds <:+ t'.deliveries := by
  cases h with
  | keeps h => exact hd.trans h
  | arrives d place m hds =>
    rw [hds, List.suffix_cons_iff] at hd
    obtain rfl | hd := hd
    · rw [List.length_cons] at hl
      omega
    · exact hd
  | ends hnil =>
    rw [hnil] at hl
    rw [List.eq_nil_of_length_eq_zero (Nat.le_zero.mp hl)]
    exact List.nil_suffix

theorem Delivers.arrival (h : t.Delivers t') (hd : d :: ds <:+ t.deliveries)
    (hl : t'.deliveries.length = ds.length) (hm : t'.next? = some m) :
    ∃ place, d.ArrivesAt place m := by
  cases h with
  | keeps h =>
    have hle := (hd.trans h).length_le
    rw [List.length_cons] at hle
    omega
  | arrives d' place m' hds hnext h =>
    rw [hnext] at hm
    cases hm
    rw [hds, List.suffix_cons_iff] at hd
    obtain heq | hd := hd
    · cases heq
      exact ⟨place, h⟩
    · have hle := hd.length_le
      rw [List.length_cons] at hle
      omega
  | ends _ hnone =>
    rw [hnone] at hm
    cases hm

theorem Returns.arrival (h : t.Returns b delegate m)
    (hd : (advance b delegate t).deliveries = d :: t.deliveries) :
    ∃ place, d.ArrivesAt place m := by
  obtain ⟨n, hmore, hl, hm⟩ := h
  -- `d` stays where it was put, whatever is put above it in the meantime
  have hwaits : ∀ k, k < n →
      d :: t.deliveries <:+ ((advance b delegate)^[k + 1] t).deliveries := by
    intro k
    induction k with
    | zero => exact fun _ => hd ▸ List.suffix_refl _
    | succ k ih =>
      intro hk
      have hmore := hmore (k + 1) hk
      rw [Function.iterate_succ_apply'] at hmore ⊢
      exact (advance_delivers b delegate _).suffix (ih (Nat.lt_of_succ_lt hk)) hmore
  cases n with
  | zero =>
    rw [Function.iterate_one, hd, List.length_cons] at hl
    omega
  | succ n =>
    rw [Function.iterate_succ_apply'] at hl hm
    exact (advance_delivers b delegate _).arrival (hwaits n (Nat.lt_succ_self n)) hl hm

theorem Returns.advance_ne_ended (h : t.Returns b delegate m) (how : Except Failure (List Cell))
    (scene : Scene) : advance b delegate t ≠ .ended how scene := by
  intro he
  obtain ⟨n, -, -, hm⟩ := h
  rw [Function.iterate_succ_apply, he, Function.iterate_fixed rfl n] at hm
  cases hm

theorem Returns.next?_advance (h : t.Returns b delegate m)
    (hd : (advance b delegate t).deliveries = t.deliveries) :
    (advance b delegate t).next? = some m := by
  obtain ⟨n, hmore, -, hm⟩ := h
  cases n with
  | zero => exact hm
  | succ n =>
    have hmore := hmore 0 (Nat.succ_pos n)
    rw [Function.iterate_one, hd] at hmore
    exact absurd hmore (Nat.lt_irrefl _)

theorem advance_hostCall {h : HostCall} (hh : t.hostCall? b delegate = some h) :
    ∃ p, t.paused? b = some p ∧
      match h.run.1 with
      | .error _ => ∃ how, advance b delegate t = .ended how h.run.2
      | .ok (.values results) => advance b delegate t =
          resume b h.run.2 p.active p.callers p.depth results t.deliveries
      | .ok (.deliver bytes) => (∃ how, advance b delegate t = .ended how h.run.2) ∨
          (advance b delegate t).deliveries = ⟨bytes, p.active, p.callers⟩ :: t.deliveries := by
  cases t with
  | ended how scene => cases hh
  | step s deliveries result w =>
    refine ⟨_, rfl, ?_⟩
    rw [advance_step]
    change called? b delegate _ (pause b s).2 result _ = _ at hh
    unfold react
    cases hp : (pause b s).2 with
    | trapped | finished =>
      rw [hp] at hh
      cases hh
    | call function args =>
      rw [hp] at hh
      obtain ⟨f, hf, rfl⟩ := Option.map_eq_some_iff.mp hh
      simp only [answer, hf]
      unfold HostCall.run
      dsimp only
      rcases f.run _ args _ with ⟨e | results | bytes, scene⟩
      · exact ⟨_, rfl⟩
      · rfl
      · dsimp only
        split
        · exact .inl ⟨_, rfl⟩
        · exact .inr rfl

theorem Returns.of_hostCall {h : HostCall} (hr : t.Returns b delegate m)
    (hh : t.hostCall? b delegate = some h) : ∃ p, t.paused? b = some p ∧
      ((∃ results, h.run.1 = .ok (.values results) ∧ m.active =
          { p.active with operands := results.reverse ++ p.active.operands } ∧
          m.callers = p.callers) ∨
        ∃ bytes place, h.run.1 = .ok (.deliver bytes) ∧
          Delivery.ArrivesAt ⟨bytes, p.active, p.callers⟩ place m) := by
  obtain ⟨p, hp, hadvance⟩ := advance_hostCall hh
  refine ⟨p, hp, ?_⟩
  rcases hrun : h.run.1 with e | results | bytes
  · rw [hrun] at hadvance
    obtain ⟨how, hend⟩ := hadvance
    exact absurd hend (hr.advance_ne_ended how _)
  · rw [hrun] at hadvance
    dsimp only at hadvance
    have hnext := hr.next?_advance (by rw [hadvance]; rfl)
    rw [hadvance] at hnext
    cases hnext
    exact .inl ⟨results, rfl, rfl, rfl⟩
  · rw [hrun] at hadvance
    obtain ⟨how, hend⟩ | hadvance := hadvance
    · exact absurd hend (hr.advance_ne_ended how _)
    · obtain ⟨place, harrives⟩ := hr.arrival hadvance
      exact .inr ⟨bytes, place, rfl, harrives⟩

end Turn

namespace Commission

variable (o : Commission) (w : World)

def Fails : Prop :=
  (o.transfer w).1 = false ∨
    ∃ e, (o.delegate.perform o.call (o.transfer w).2).1.output = .error e

def Yields (bytes : Bytes) : Prop :=
  (o.transfer w).1 = true ∧ (o.delegate.perform o.call (o.transfer w).2).1.output = .ok bytes

variable {o w}

theorem Yields.not_fails {bytes : Bytes} (h : o.Yields w bytes) : ¬o.Fails w := by
  rintro (hrefused | ⟨e, he⟩)
  · rw [h.1] at hrefused
    cases hrefused
  · rw [h.2] at he
    cases he

theorem reply_outcome : (o.Fails w ∧ reply (o.outcome w).1 = .values [.ofInt64 (-1)]) ∨
    ∃ bytes, o.Yields w bytes ∧ reply (o.outcome w).1 = .deliver bytes := by
  unfold outcome Fails Yields
  rcases o.transfer w with ⟨_ | _, v⟩
  · exact .inl ⟨.inl rfl, rfl⟩
  · dsimp only
    rcases o.delegate.perform o.call v with ⟨⟨e | bytes, fuelUsed⟩, v'⟩
    · exact .inl ⟨.inr ⟨e, rfl⟩, rfl⟩
    · exact .inr ⟨bytes, ⟨rfl, rfl⟩, rfl⟩

theorem reply_of_fails (h : o.Fails w) :
    reply (o.outcome w).1 = .values [.ofInt64 (-1)] := by
  obtain ⟨-, heq⟩ | ⟨bytes, hyields, -⟩ := o.reply_outcome (w := w)
  · exact heq
  · exact absurd h hyields.not_fails

end Commission

namespace Turn

variable {b : Box} {delegate : Option Delegate} {t : Turn} {m : Machine} {h : HostCall}

theorem Returns.of_callContract (hr : t.Returns b delegate m)
    (hh : t.hostCall? b delegate = some h) (hf : h.function = .callContract) :
    ∃ o p, h.commission = .ok o ∧ t.paused? b = some p ∧
      ((o.Fails h.scene.world ∧ p.GoesOnWith (.ofInt64 (-1)) m) ∨
        ∃ bytes place, o.Yields h.scene.world bytes ∧
          Delivery.ArrivesAt ⟨bytes, p.active, p.callers⟩ place m) := by
  obtain ⟨p, hp, hreply⟩ := hr.of_hostCall hh
  have hok : ∃ reply, h.run.1 = .ok reply := by
    obtain ⟨results, hrun, -⟩ | ⟨bytes, place, hrun, -⟩ := hreply <;> exact ⟨_, hrun⟩
  obtain ⟨reply, hrun⟩ := hok
  obtain ⟨o, ho, hcovered⟩ := h.commission_of_run hf hrun
  refine ⟨o, p, ho, hp, ?_⟩
  rw [(h.run_of_covered hf ho hcovered).1] at hreply
  obtain ⟨hfails, heq⟩ | ⟨bytes, hyields, heq⟩ := o.reply_outcome (w := h.scene.world)
  · rw [heq] at hreply
    obtain ⟨results, hvalues, hactive, hcallers⟩ | ⟨bytes, place, hdeliver, -⟩ := hreply
    · cases hvalues
      exact .inl ⟨hfails, hactive, hcallers⟩
    · cases hdeliver
  · rw [heq] at hreply
    obtain ⟨results, hvalues, -⟩ | ⟨bytes', place, hdeliver, harrives⟩ := hreply
    · cases hvalues
    · cases hdeliver
      exact .inr ⟨bytes, place, hyields, harrives⟩

theorem returns_of_fails {o : Commission} (hh : t.hostCall? b delegate = some h)
    (hf : h.function = .callContract) (ho : h.commission = .ok o)
    (hcovered : o.fuel ≤ h.scene.guest.meter.remaining) (hfails : o.Fails h.scene.world) :
    ∃ p m, t.paused? b = some p ∧ p.GoesOnWith (.ofInt64 (-1)) m ∧ t.Returns b delegate m := by
  obtain ⟨p, hp, hadvance⟩ := advance_hostCall hh
  rw [(h.run_of_covered hf ho hcovered).1, Commission.reply_of_fails hfails] at hadvance
  dsimp only at hadvance
  obtain ⟨m, hnext, hm⟩ : ∃ m, (advance b delegate t).next? = some m ∧
      p.GoesOnWith (.ofInt64 (-1)) m := by
    rw [hadvance]
    exact ⟨_, rfl, rfl, rfl⟩
  refine ⟨p, m, hp, hm, 0, nofun, ?_, hnext⟩
  rw [Function.iterate_one, hadvance]
  rfl

end Turn

/-- What `callContract` returns is never ambiguous, whatever is called and however the guest's
`alloc` behaves. It is `-1` if and only if the value was not sent or the call failed, and such a
failure never ends the caller. Any other result is not negative, and splits into the place and the
length of the bytes that the call has come to, which are there, in the caller's memory. Packing
loses nothing, and no pair packs to `-1`. -/
theorem callContract_result_unambiguous (b : Box) (delegate : Option Delegate) :
    (∀ (t : Turn) (h : HostCall) (m : Machine), t.hostCall? b delegate = some h →
      h.function = .callContract → t.Returns b delegate m →
      ∃ o p r, h.commission = .ok o ∧ t.paused? b = some p ∧ p.GoesOnWith r m ∧
        (r.int64 = -1 ↔ o.Fails h.scene.world) ∧
        (r.int64 ≠ -1 → 0 ≤ r.int64 ∧ 0 ≤ r.upper ∧
          r.upper.toNat + r.lower ≤ m.state.memory.size ∧
          ∃ bytes, o.Yields h.scene.world bytes ∧ r.lower = bytes.length ∧
            m.state.memory.read? r.upper.toNat r.lower = some bytes)) ∧
    (∀ (t : Turn) (h : HostCall) (o : Commission), t.hostCall? b delegate = some h →
      h.function = .callContract → h.commission = .ok o →
      o.fuel ≤ h.scene.guest.meter.remaining → o.Fails h.scene.world →
      ∃ p m, t.paused? b = some p ∧ p.GoesOnWith (.ofInt64 (-1)) m ∧ t.Returns b delegate m) ∧
    ∀ (ptr : Int32) (len : UInt32), 0 ≤ ptr.toInt →
      let r := Cell.ofInt64 (packRange ptr.toInt len.toNat)
      r = ptr.toInt64.toUInt64 <<< 32 ||| len.toUInt64 ∧
        r.upper = ptr.toInt ∧ r.lower = len.toNat ∧ r.int64 ≠ -1 := by
  have hminus : (Cell.ofInt64 (-1)).int64 = -1 := by decide
  refine ⟨fun t h m hh hf hr => ?_, fun t h o hh hf ho => Turn.returns_of_fails hh hf ho,
    fun ptr len hptr => ?_⟩
  · obtain ⟨o, p, ho, hp, ⟨hfails, hm⟩ | ⟨bytes, place, hyields, harrives⟩⟩ :=
      hr.of_callContract hh hf
    · exact ⟨o, p, _, ho, hp, hm, ⟨fun _ => hfails, fun _ => hminus⟩,
        fun hne => absurd hminus hne⟩
    · have hmax : Int32.maxValue.toInt = 2 ^ 31 - 1 := rfl
      have hshort := harrives.short
      have hlen : bytes.length < 2 ^ 32 := by
        dsimp only at hshort
        omega
      have hnonneg := (packRange_bounds harrives.nonneg hlen).1
      refine ⟨o, p, _, ho, hp, ⟨harrives.active, harrives.callers⟩, ?_, fun _ => ?_⟩
      · rw [int64_packRange harrives.nonneg hlen]
        exact ⟨fun heq => by omega, fun hfails => absurd hfails hyields.not_fails⟩
      · rw [int64_packRange harrives.nonneg hlen, upper_packRange harrives.nonneg hlen,
          lower_packRange harrives.nonneg hlen]
        exact ⟨hnonneg, harrives.nonneg, harrives.fits, bytes, hyields, rfl, harrives.bytes⟩
  · have hlen : len.toNat < 2 ^ 32 := len.toNat_lt
    have hnonneg := (packRange_bounds hptr hlen).1
    refine ⟨packRange_eq_or ptr len, upper_packRange hptr hlen, lower_packRange hptr hlen, ?_⟩
    rw [int64_packRange hptr hlen]
    omega

def Turn.patronage : Turn :=
  .step
    (.next
      { state := ⟨⟨⟨(1 :: List.replicate 63 0).toArray⟩, 1⟩, #[], ⟨100, 0, 100, 0⟩⟩
        active := ⟨1, #[0], [], (Wasm.Module.patron.functions.getD 0 default).body, []⟩
        callers := [⟨1, #[], [], [], []⟩]
        depth := 1
        patience := none })
    [] none { World.patronage with registry := Table.empty.insert 1 { fuel := 100 } }

def Box.patron : Box where
  id := 1
  module := .patron
  program := ⟨#[HostFunction.callContract.type], Wasm.Module.patron.functions, #[], 10000⟩
  links := #[.callContract]
  timeout := 0
  deadline := none
  ceiling := 1 <<< 62

theorem callContract_result_unambiguous_for_a_patron :
    let delegate : Delegate := ⟨10, fun _ w => (⟨.ok [7, 8], 0⟩, w)⟩
    ∃ (h : HostCall) (m : Machine) (o : Commission) (r : Cell),
      Turn.patronage.hostCall? .patron delegate = some h ∧ h.function = .callContract ∧
        Turn.patronage.Returns .patron delegate m ∧ h.commission = .ok o ∧ r.int64 = 2 ∧
        ¬o.Fails h.scene.world ∧
        ∃ bytes, o.Yields h.scene.world bytes ∧ m.state.memory.read? 0 2 = some bytes := by
  intro delegate
  let h := (Turn.patronage.hostCall? .patron delegate).get (by decide +kernel)
  let m := ((Turn.advance .patron delegate)^[3] .patronage).next?.get (by decide +kernel)
  have hh : Turn.patronage.hostCall? .patron delegate = some h := Option.eq_some_of_isSome _
  have hf : h.function = .callContract := by decide +kernel
  have hr : Turn.patronage.Returns .patron delegate m :=
    ⟨2, by decide +kernel, by decide +kernel, Option.eq_some_of_isSome _⟩
  obtain ⟨o, q, r, ho, -, hm, hfails, hreturned⟩ :=
    (callContract_result_unambiguous .patron delegate).1 .patronage h m hh hf hr
  have hhead : m.active.operands.headD 0 = 2 := by decide +kernel
  rw [hm.1] at hhead
  obtain rfl : r = 2 := hhead
  have hne : (2 : Cell).int64 ≠ -1 := by decide
  obtain ⟨-, -, -, bytes, hyields, -, hread⟩ := hreturned hne
  exact ⟨h, m, o, 2, hh, hf, hr, ho, rfl, mt hfails.mpr hne, bytes, hyields, hread⟩

end MeteredContracts
