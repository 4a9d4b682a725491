import MeteredContracts.Wasm.Machine

namespace MeteredContracts

inductive Meter.Burns (m : Meter) : Meter → Prop
  | refl : Burns m m
  | charge {m' : Meter} (cost : Nat) : Burns m m' → Burns m (m'.charge cost)
  | settle {m' : Meter} : Burns m m' → Burns m m'.settle
  | forgive {m' : Meter} : Burns m m' → Burns m m'.forgive

structure Meter.Spends (before after : Meter) : Prop where
  initial : after.initial = before.initial
  granted : after.granted = before.granted
  remaining : after.remaining ≤ before.remaining

namespace Meter

theorem Burns.trans {a b c : Meter} (h : a.Burns b) (h' : b.Burns c) : a.Burns c := by
  induction h' with
  | refl => exact h
  | charge cost _ ih => exact ih.charge cost
  | settle _ ih => exact ih.settle
  | forgive _ ih => exact ih.forgive

theorem burns_charge (m : Meter) (cost : Nat) : m.Burns (m.charge cost) := .charge cost .refl

theorem burns_settle (m : Meter) : m.Burns m.settle := .settle .refl

theorem burns_forgive (m : Meter) : m.Burns m.forgive := .forgive .refl

theorem Spends.refl (m : Meter) : m.Spends m := ⟨rfl, rfl, Nat.le_refl _⟩

theorem Spends.trans {a b c : Meter} (h : a.Spends b) (h' : b.Spends c) : a.Spends c :=
  ⟨h'.initial.trans h.initial, h'.granted.trans h.granted, Nat.le_trans h'.remaining h.remaining⟩

theorem remaining_refund (m : Meter) (amount : Nat) :
    (m.refund amount).remaining = saturate (m.remaining + amount) := by
  simp only [remaining, refund, Int.toNat_natCast]

theorem remaining_new (budget : UInt64) : (new budget).remaining = budget.toNat := by
  simp only [remaining, new, Int.toNat_natCast]

theorem remaining_settle (m : Meter) : m.settle.remaining = m.remaining - m.unpaid := by
  simp only [remaining, settle]
  omega

theorem Burns.spends {a b : Meter} (h : a.Burns b) : a.Spends b := by
  induction h with
  | refl => exact .refl a
  | charge _ _ ih => exact ⟨ih.initial, ih.granted, ih.remaining⟩
  | @settle m _ ih =>
    refine ⟨ih.initial, ih.granted, ?_⟩
    rw [remaining_settle]
    exact Nat.le_trans (Nat.sub_le _ _) ih.remaining
  | forgive _ ih => exact ⟨ih.initial, ih.granted, ih.remaining⟩

end Meter

namespace Wasm

def Step.BurnsFrom (s : Step) (before : Meter) : Prop := before.Burns s.machine.state.meter

namespace Machine

variable (p : Program) (m : Machine)

theorem trap_burns (t : Trap) : (trap m t).BurnsFrom m.state.meter :=
  m.state.meter.burns_forgive

theorem trap_settle_burns (t : Trap) : (trap m.settle t).BurnsFrom m.state.meter :=
  m.state.meter.burns_settle.trans (trap_burns m.settle t)

theorem safePoint_burns : (safePoint m).BurnsFrom m.state.meter := by
  unfold safePoint
  split
  · exact trap_settle_burns m _
  · split
    · exact .refl
    · exact trap_burns m _
    · exact .refl

theorem enter_burns (f : Function) (args : List Cell) (callers : List Activation) :
    (enter p m f args callers).BurnsFrom m.state.meter := by
  unfold enter
  split
  · exact trap_burns m _
  · exact (m.state.meter.burns_charge 1).trans
      (safePoint_burns { m.pay with active := _, callers, depth := m.depth + 1 })

theorem call_burns (index : Nat) : (call p m index).BurnsFrom m.state.meter := by
  have hs := m.state.meter.burns_settle
  unfold call
  dsimp only
  split
  · exact trap_settle_burns m _
  · split
    · exact hs
    · split
      · exact trap_settle_burns m _
      · exact hs.trans (enter_burns p m.settle _ _ _)

theorem leave_burns : (leave m).BurnsFrom m.state.meter := by
  have hs := m.state.meter.burns_settle
  unfold leave
  dsimp only
  split
  · exact hs
  · exact hs

theorem branch_burns (depth : Nat) : (branch m depth).BurnsFrom m.state.meter := by
  unfold branch
  split
  · exact leave_burns m
  · dsimp only
    split
    · exact .refl
    · exact safePoint_burns _

theorem load_burns (width : Width) (access : Access) (extension : Extension) :
    (load m width access extension).BurnsFrom m.state.meter := by
  unfold load
  split
  · exact trap_burns m _
  · split
    · exact .refl
    · exact .refl

theorem rewrite_burns (stop count : Nat) (change : ByteArray → ByteArray) :
    (m.rewrite stop count change).BurnsFrom m.state.meter := by
  unfold rewrite
  split
  · exact .refl
  · exact trap_burns m _

theorem grow_burns : (grow m).BurnsFrom m.state.meter := by
  unfold grow
  split
  · exact .refl
  · exact .refl

theorem callIndirect_burns (type : FunctionType) :
    (callIndirect p m type).BurnsFrom m.state.meter := by
  have hs := m.state.meter.burns_settle
  have trapped (t : Trap) : (trap (m.discard 1).settle t).BurnsFrom m.state.meter :=
    trap_settle_burns (m.discard 1) t
  unfold callIndirect
  dsimp only
  split
  · exact trapped _
  · exact trapped _
  · split
    · exact hs.trans (call_burns p (m.discard 1).settle _)
    · exact trapped _

theorem perform_burns (i : Instruction) : (perform p m i).BurnsFrom m.state.meter := by
  have hp := m.state.meter.burns_charge 1
  cases i with
  | unreachable => exact trap_settle_burns m _
  | loop type body =>
    exact safePoint_burns { m with active := pushBlock m.active type (some body) body }
  | br label => exact hp.trans (branch_burns m.pay label)
  | brIf label =>
    simp only [perform]
    split
    · exact hp
    · exact hp.trans (branch_burns (m.discard 1).pay label)
  | brTable labels other => exact hp.trans (branch_burns (m.discard 1).pay _)
  | ret => exact leave_burns m
  | call f => exact hp.trans (call_burns p m.pay f)
  | callIndirect type => exact hp.trans (callIndirect_burns p m.pay type)
  | load width access extension => exact hp.trans (load_burns m.pay width access extension)
  | store | memoryCopy | memoryFill =>
    simp only [perform, store, copy, fill]
    exact hp.trans (rewrite_burns m.pay _ _ _)
  | memoryGrow => exact hp.trans (grow_burns m.pay)
  | binary width op =>
    simp only [perform]
    split
    · exact hp
    · exact trap_burns m _
  | extend e => cases e <;> exact hp
  | nop | block | drop => exact .refl
  | ifElse | select | localGet | localSet | localTee | globalGet | globalSet | memorySize | const
  | unary | wrap => exact hp

theorem step_burns : (step p m).BurnsFrom m.state.meter := by
  unfold step
  split
  next i rest _ => exact perform_burns p { m with active := { m.active with rest } } i
  · split
    · exact .refl
    · exact leave_burns m

theorem run_burns (steps : Nat) : m.state.meter.Burns (m.run p steps).1.state.meter := by
  induction steps generalizing m with
  | zero => exact .refl
  | succ steps ih =>
    have hs := step_burns p m
    unfold run
    split
    next m' h =>
      rw [h] at hs
      exact hs.trans (ih m')
    next m' why h =>
      rw [h] at hs
      exact hs

end Machine

end Wasm

end MeteredContracts
