import Mathlib.Algebra.GroupWithZero.Nat
import Mathlib.Data.List.Induction
import MeteredContracts.Proofs.Spending
import MeteredContracts.Sandbox.HostFunction

/-!
The books of a meter. As long as budget and grants fit in a machine word, and nothing is refunded
that was not consumed before, consumption is what debits and guests have taken out of the pool, less
what was refunded; and to debit fuel and refund it again is as good as nothing.
-/

namespace MeteredContracts

namespace Meter

inductive Operation
  | add (amount : Nat)
  | refund (amount : Nat)
  | consume (amount : Nat)
  | charge (cost : Nat)
  | settle
  | forgive
  deriving DecidableEq, Repr

def Operation.isGuests : Operation → Bool
  | .charge _ | .settle | .forgive => true
  | _ => false

def apply (m : Meter) : Operation → Meter
  | .add amount => m.add amount
  | .refund amount => m.refund amount
  | .consume amount =>
    match m.consume amount with
    | .ok m' => m'
    | .error _ => m
  | .charge cost => m.charge cost
  | .settle => m.settle
  | .forgive => m.forgive

def after (m : Meter) (ops : List Operation) : Meter := ops.foldl apply m

def Operation.granted : Operation → Nat
  | .add amount => amount
  | _ => 0

def Operation.refunded : Operation → Nat
  | .refund amount => amount
  | _ => 0

def debited (m : Meter) : Operation → Nat
  | .consume amount => if m.remaining < amount then 0 else amount
  | _ => 0

def burned (m : Meter) : Operation → Nat
  | .settle => min m.unpaid m.remaining
  | _ => 0

def total (amount : Meter → Operation → Nat) : Meter → List Operation → Nat
  | _, [] => 0
  | m, op :: ops => amount m op + total amount (m.apply op) ops

def Covers : Meter → List Operation → Prop
  | _, [] => True
  | m, op :: ops => op.refunded ≤ m.consumed ∧ Covers (m.apply op) ops

instance decidableCovers : ∀ (m : Meter) (ops : List Operation), Decidable (m.Covers ops)
  | _, [] => inferInstanceAs (Decidable True)
  | m, op :: ops =>
    have := decidableCovers (m.apply op) ops
    inferInstanceAs (Decidable (_ ∧ _))

theorem after_append (m : Meter) (ops ops' : List Operation) :
    m.after (ops ++ ops') = (m.after ops).after ops' := List.foldl_append

theorem covers_of_append {m : Meter} {ops ops' : List Operation} (h : m.Covers (ops ++ ops')) :
    m.Covers ops := by
  induction ops generalizing m with
  | nil => trivial
  | cons op ops ih => exact ⟨h.1, ih h.2⟩

section Single

variable (m : Meter) {amount : Nat}

theorem remaining_add (amount : Nat) :
    (m.add amount).remaining = saturate (m.remaining + amount) := by
  simp only [remaining, add, Int.toNat_natCast]

variable {m}

theorem consume_of_lt (h : m.remaining < amount) : m.consume amount = .error .fuelExhausted :=
  if_pos h

theorem consume_of_le (h : amount ≤ m.remaining) :
    m.consume amount = .ok { m with balance := m.remaining - amount } :=
  if_neg (Nat.not_lt.mpr h)

theorem consume_eq_error_iff : (∃ e, m.consume amount = .error e) ↔ m.remaining < amount := by
  refine ⟨fun ⟨e, h⟩ => Nat.not_le.mp fun hle => ?_, fun h => ⟨_, consume_of_lt h⟩⟩
  rw [consume_of_le hle] at h
  cases h

theorem apply_consume_of_lt (h : m.remaining < amount) : m.apply (.consume amount) = m := by
  simp only [apply, consume_of_lt h]

theorem apply_consume_of_le (h : amount ≤ m.remaining) :
    m.apply (.consume amount) = { m with balance := m.remaining - amount } := by
  simp only [apply, consume_of_le h]

end Single

structure Sound (m : Meter) : Prop where
  bounded : m.remaining ≤ m.initial + m.granted
  fits : m.initial + m.granted ≤ maxFuel

theorem sound_new (budget : UInt64) : (new budget).Sound where
  bounded := Nat.le_of_eq (remaining_new budget)
  fits := Nat.le_pred_of_lt budget.toNat_lt

theorem Sound.remaining_add_consumed {m : Meter} (hm : m.Sound) :
    m.remaining + m.consumed = m.initial + m.granted := by
  obtain ⟨hbounded, hfits⟩ := hm
  unfold consumed saturate
  omega

structure Books (before after : Meter) (grants refunds debits burns : Nat) : Prop where
  initial : after.initial = before.initial
  granted : after.granted = before.granted + grants
  pool : after.remaining + (debits + burns) = before.remaining + (grants + refunds)

theorem Books.trans {a b c : Meter} {g r d u g' r' d' u' : Nat} (h : a.Books b g r d u)
    (h' : b.Books c g' r' d' u') : a.Books c (g + g') (r + r') (d + d') (u + u') where
  initial := h'.initial.trans h.initial
  granted := by rw [h'.granted, h.granted, Nat.add_assoc]
  pool := by
    have hfirst := h.pool
    have hsecond := h'.pool
    omega

theorem Sound.books_apply {m : Meter} (hm : m.Sound) {op : Operation}
    (hfits : m.initial + m.granted + op.granted ≤ maxFuel) (hcovers : op.refunded ≤ m.consumed) :
    m.Books (m.apply op) op.granted op.refunded (m.debited op) (m.burned op) := by
  have hbooks := hm.remaining_add_consumed
  cases op with
  | add amount =>
    change m.initial + m.granted + amount ≤ maxFuel at hfits
    refine ⟨rfl, ?_, ?_⟩
    · show saturate (m.granted + amount) = m.granted + amount
      unfold saturate
      omega
    · show (m.add amount).remaining = m.remaining + amount
      rw [remaining_add, saturate]
      omega
  | refund amount =>
    change amount ≤ m.consumed at hcovers
    have hfits := hm.fits
    refine ⟨rfl, rfl, ?_⟩
    show (m.refund amount).remaining = m.remaining + (0 + amount)
    rw [remaining_refund, saturate]
    omega
  | consume amount =>
    obtain hlt | hle := Nat.lt_or_ge m.remaining amount
    · rw [apply_consume_of_lt hlt, debited, if_pos hlt]
      exact ⟨rfl, rfl, rfl⟩
    · rw [apply_consume_of_le hle, debited, if_neg (Nat.not_lt.mpr hle)]
      refine ⟨rfl, rfl, ?_⟩
      show ((m.remaining : Int) - amount).toNat + amount = m.remaining
      omega
  | charge cost => exact ⟨rfl, rfl, rfl⟩
  | settle =>
    refine ⟨rfl, rfl, ?_⟩
    show m.settle.remaining + (0 + min m.unpaid m.remaining) = m.remaining
    rw [remaining_settle]
    omega
  | forgive => exact ⟨rfl, rfl, rfl⟩

theorem Sound.apply {m : Meter} (hm : m.Sound) {op : Operation}
    (hfits : m.initial + m.granted + op.granted ≤ maxFuel) (hcovers : op.refunded ≤ m.consumed) :
    (m.apply op).Sound := by
  have hbooks := hm.remaining_add_consumed
  have hbounded := hm.bounded
  obtain ⟨hinitial, hgranted, hpool⟩ := hm.books_apply hfits hcovers
  constructor <;> omega

theorem Sound.books_after {m : Meter} (hm : m.Sound) {ops : List Operation}
    (hfits : m.initial + m.granted + (ops.map Operation.granted).sum ≤ maxFuel)
    (hcovers : m.Covers ops) :
    (m.after ops).Sound ∧ m.Books (m.after ops) (ops.map Operation.granted).sum
      (ops.map Operation.refunded).sum (m.total debited ops) (m.total burned ops) := by
  -- one operation after the other: each finds a meter whose pool is bounded by what was put in
  induction ops generalizing m with
  | nil => exact ⟨hm, rfl, rfl, rfl⟩
  | cons op ops ih =>
    simp only [List.map_cons, List.sum_cons] at hfits ⊢
    obtain ⟨hop, hrest⟩ := hcovers
    have hfirst : m.initial + m.granted + op.granted ≤ maxFuel := by omega
    have hbooks := hm.books_apply hfirst hop
    have hlater : (m.apply op).initial + (m.apply op).granted +
        (ops.map Operation.granted).sum ≤ maxFuel := by
      rw [hbooks.initial, hbooks.granted]
      omega
    obtain ⟨hsound, hothers⟩ := ih (hm.apply hfirst hop) hlater hrest
    exact ⟨hsound, hbooks.trans hothers⟩

theorem Sound.books_of_isPrefix {m : Meter} (hm : m.Sound) {ops done : List Operation}
    (hfits : m.initial + m.granted + (ops.map Operation.granted).sum ≤ maxFuel)
    (hcovers : m.Covers ops) (hdone : done <+: ops) :
    (m.after done).Sound ∧ m.Books (m.after done) (done.map Operation.granted).sum
      (done.map Operation.refunded).sum (m.total debited done) (m.total burned done) := by
  obtain ⟨rest, rfl⟩ := hdone
  rw [List.map_append, List.sum_append] at hfits
  exact hm.books_after (by omega) (covers_of_append hcovers)

def cleared (m : Meter) : Meter := { m with balance := m.remaining }

theorem cleared_of_nonneg {m : Meter} (h : 0 ≤ m.balance) : m.cleared = m := by
  unfold cleared remaining
  rw [Int.toNat_of_nonneg h]

theorem remaining_cleared (m : Meter) : m.cleared.remaining = m.remaining :=
  Int.toNat_natCast _

theorem cleared_eq {a b : Meter} (hr : a.remaining = b.remaining) (hu : a.unpaid = b.unpaid)
    (hi : a.initial = b.initial) (hg : a.granted = b.granted) : a.cleared = b.cleared := by
  simp only [cleared, hr, hu, hi, hg]

theorem apply_cleared (m : Meter) (op : Operation) :
    (m.cleared.apply op).cleared = (m.apply op).cleared := by
  have hremaining := m.remaining_cleared
  cases op with
  | add amount =>
    refine cleared_eq ?_ rfl rfl rfl
    show (m.cleared.add amount).remaining = (m.add amount).remaining
    rw [remaining_add, remaining_add, hremaining]
  | refund amount =>
    refine cleared_eq ?_ rfl rfl rfl
    show (m.cleared.refund amount).remaining = (m.refund amount).remaining
    rw [remaining_refund, remaining_refund, hremaining]
  | consume amount =>
    obtain hlt | hle := Nat.lt_or_ge m.remaining amount
    · rw [apply_consume_of_lt hlt, apply_consume_of_lt (hremaining.symm ▸ hlt)]
      exact cleared_eq hremaining rfl rfl rfl
    · rw [apply_consume_of_le hle, apply_consume_of_le (hremaining.symm ▸ hle), hremaining]
      rfl
  | charge cost => exact cleared_eq hremaining rfl rfl rfl
  | settle =>
    refine cleared_eq ?_ rfl rfl rfl
    show m.cleared.settle.remaining = m.settle.remaining
    rw [remaining_settle, remaining_settle, hremaining]
    rfl
  | forgive => exact cleared_eq hremaining rfl rfl rfl

theorem after_cleared (m : Meter) (ops : List Operation) :
    (m.cleared.after ops).cleared = (m.after ops).cleared := by
  -- from the last operation back, since it is the end that is cleared
  induction ops using List.reverseRecOn with
  | nil => exact cleared_eq m.remaining_cleared rfl rfl rfl
  | append_singleton ops op ih =>
    rw [after_append, after_append]
    show ((m.cleared.after ops).apply op).cleared = ((m.after ops).apply op).cleared
    rw [← apply_cleared, ih, apply_cleared]

structure Reading where
  remaining : Nat
  consumed : Nat
  granted : Nat
  isEmpty : Bool
  deriving DecidableEq, Repr

def reading (m : Meter) : Reading := ⟨m.remaining, m.consumed, m.granted, m.isEmpty⟩

theorem reading_cleared (m : Meter) : m.cleared.reading = m.reading := by
  have hempty : m.cleared.isEmpty = m.isEmpty := by
    unfold isEmpty cleared remaining
    rw [decide_eq_decide]
    dsimp only
    omega
  unfold reading consumed
  rw [hempty, m.remaining_cleared]
  rfl

theorem reading_after_cleared (m : Meter) (ops : List Operation) :
    (m.cleared.after ops).reading = (m.after ops).reading := by
  rw [← reading_cleared, after_cleared, reading_cleared]

theorem Sound.refund_of_consume {m m' : Meter} (hm : m.Sound) {amount : Nat}
    (h : m.consume amount = .ok m') : m'.refund amount = m.cleared := by
  have hbounded := hm.bounded
  have hfits := hm.fits
  obtain hlt | hle := Nat.lt_or_ge m.remaining amount
  · rw [consume_of_lt hlt] at h
    cases h
  · rw [consume_of_le hle] at h
    cases h
    have hback : saturate (((m.remaining : Int) - amount).toNat + amount) = m.remaining := by
      unfold saturate
      omega
    simp only [refund, cleared, remaining] at hback ⊢
    rw [hback]

theorem Burns.exists_operations {m m' : Meter} (h : m.Burns m') :
    ∃ ops : List Operation, (∀ op ∈ ops, op.isGuests) ∧ m.after ops = m' := by
  have append (op : Operation) (hop : op.isGuests) {m' : Meter}
      (hops : ∃ ops : List Operation, (∀ op ∈ ops, op.isGuests) ∧ m.after ops = m') :
      ∃ ops : List Operation, (∀ op ∈ ops, op.isGuests) ∧ m.after ops = m'.apply op := by
    obtain ⟨ops, hguests, rfl⟩ := hops
    refine ⟨ops ++ [op], fun op' hop' => ?_, m.after_append ops [op]⟩
    obtain hold | hnew := List.mem_append.mp hop'
    · exact hguests op' hold
    · obtain rfl := List.mem_singleton.mp hnew
      exact hop
  induction h with
  | refl => exact ⟨[], nofun, rfl⟩
  | charge cost _ ih => exact append (.charge cost) rfl ih
  | settle _ ih => exact append .settle rfl ih
  | forgive _ ih => exact append .forgive rfl ih

/-- The ledger is exact at every point of a history: what is left and what is consumed make up
budget and grants, and consumption is the debits that went through and what guests burnt, less the
refunds. -/
theorem ledger_exact (budget : UInt64) {ops done : List Operation} {m : Meter}
    (hfits : budget.toNat + (ops.map Operation.granted).sum ≤ maxFuel)
    (hcovers : (new budget).Covers ops) (hdone : done <+: ops)
    (hm : (new budget).after done = m) :
    m.remaining + m.consumed = budget.toNat + m.granted ∧
      m.granted = (done.map Operation.granted).sum ∧
      m.consumed + (done.map Operation.refunded).sum =
        (new budget).total debited done + (new budget).total burned done ∧
      (∀ n, (∃ e, m.consume n = .error e) ↔ m.remaining < n) ∧
      (∀ n, ∀ s : Scene, s.guest.meter = m → m.remaining < n →
        Caller.consumeFuel n s = (.error (.call .fuelExhausted), s)) ∧
      (∀ n m', m.consume n = .ok m' →
        (0 ≤ m.balance → m'.refund n = m) ∧
          ∀ later, ((m'.refund n).after later).reading = (m.after later).reading) ∧
      ∀ (p : Wasm.Program) (g : Wasm.Machine) (steps : Nat), g.state.meter = m →
        ∃ burns : List Operation, (∀ op ∈ burns, op.isGuests) ∧
          m.after burns = (g.run p steps).1.state.meter := by
  subst hm
  obtain ⟨hsound, hinitial, hgranted, hpool⟩ := (sound_new budget).books_of_isPrefix
    (show budget.toNat + 0 + (ops.map Operation.granted).sum ≤ maxFuel from hfits) hcovers hdone
  have hinitial : ((new budget).after done).initial = budget.toNat := hinitial
  have hgranted : ((new budget).after done).granted = (done.map Operation.granted).sum :=
    hgranted.trans (Nat.zero_add _)
  have hremaining := remaining_new budget
  have hbooks := hsound.remaining_add_consumed
  refine ⟨hinitial ▸ hbooks, hgranted, by omega, fun n => consume_eq_error_iff, ?_, ?_, ?_⟩
  · intro n s hs hlt
    simp only [Caller.consumeFuel, hs, consume_of_lt hlt]
  · intro n m' hconsumed
    have hback := hsound.refund_of_consume hconsumed
    exact ⟨fun hbalance => hback.trans (cleared_of_nonneg hbalance),
      fun later => hback ▸ reading_after_cleared _ later⟩
  · rintro p g steps hg
    exact hg ▸ (Wasm.Machine.run_burns p g steps).exists_operations

theorem ledger_exact_of_overdrawn :
    let ops : List Operation :=
      [.charge 3, .settle, .consume 40, .add 30, .consume 200, .refund 40, .charge 200, .settle]
    let m := (new 100).after ops
    (100 + (ops.map Operation.granted).sum ≤ maxFuel ∧ (new 100).Covers ops) ∧
      m.remaining + m.consumed = 100 + m.granted ∧
      (m.remaining, m.consumed, m.granted, m.balance) = (0, 130, 30, -73) ∧
      m.consumed + 40 = (new 100).total debited ops + (new 100).total burned ops := by
  intro ops m
  have hfits : 100 + (ops.map Operation.granted).sum ≤ maxFuel := by decide
  have hcovers : (new 100).Covers ops := by decide
  obtain ⟨hbooks, -, hconsumed, -⟩ := ledger_exact 100 hfits hcovers (List.prefix_refl ops) rfl
  exact ⟨⟨hfits, hcovers⟩, hbooks, by decide, hconsumed⟩

end Meter

end MeteredContracts
