import MeteredContracts.Call.Registry

/-!
Registrations and the guards that end them. A guard knows its sandbox, but not which registration of
it the guard was given for; so a guard that is held beyond the next registration of its sandbox ends
that one when it is dropped.
-/

namespace MeteredContracts.Registry

/-- What a registration gives out, to end it by. The number tells guards for one sandbox apart. -/
structure Guard where
  number : Nat
  sandbox : Nat
  deriving DecidableEq, Repr

inductive Event
  | register (guard : Guard) (call : Call)
  | drop (guard : Guard)
  deriving DecidableEq

abbrev History := List Event

namespace History

def registry : History → Registry
  | [] => .empty
  | .register g call :: past => (registry past).register g.sandbox call
  | .drop g :: past => (registry past).release g.sandbox

def held : History → List Guard
  | [] => []
  | .register g _ :: past => g :: held past
  | .drop g :: past => (held past).filter (· ≠ g)

/-- Only guards that are held are dropped, and no guard is given out twice at a time. -/
def Lawful : History → Prop
  | [] => True
  | .register g _ :: past => g ∉ held past ∧ Lawful past
  | .drop g :: past => g ∈ held past ∧ Lawful past

instance decidableLawful : ∀ h : History, Decidable h.Lawful
  | [] => inferInstanceAs (Decidable True)
  | .register _ _ :: past | .drop _ :: past =>
    have := decidableLawful past
    inferInstanceAs (Decidable (_ ∧ _))

def latest? (sandbox : Nat) : History → Option (Guard × Call)
  | [] => none
  | .register g call :: past => if g.sandbox = sandbox then some (g, call) else latest? sandbox past
  | .drop _ :: past => latest? sandbox past

def before (sandbox : Nat) : History → History
  | [] => []
  | .register g _ :: past => if g.sandbox = sandbox then past else before sandbox past
  | .drop _ :: past => before sandbox past

def droppedSince (sandbox : Nat) : History → List Guard
  | [] => []
  | .register g _ :: past => if g.sandbox = sandbox then [] else droppedSince sandbox past
  | .drop g :: past =>
    if g.sandbox = sandbox then g :: droppedSince sandbox past else droppedSince sandbox past

structure Guarded (h : History) : Prop where
  lasts : ∀ sandbox g call, latest? sandbox h = some (g, call) → g ∈ held h →
    (registry h).get? sandbox = some call
  ends : ∀ sandbox, (∀ g ∈ held h, g.sandbox ≠ sandbox) → (registry h).get? sandbox = none
  spares : ∀ g ∈ held h, ∀ g' call, g' ≠ g → latest? g'.sandbox h = some (g', call) →
    (registry h).get? g'.sandbox = some call →
      (registry (.drop g :: h)).get? g'.sandbox = some call

def Overlaps (h : History) (sandbox : Nat) : Prop :=
  ∃ g ∈ held (before sandbox h), g.sandbox = sandbox

variable {h : History} {sandbox : Nat} {g g' : Guard} {call : Call}

theorem mem_held_register : g ∈ held (.register g' call :: h) ↔ g = g' ∨ g ∈ held h :=
  List.mem_cons

theorem mem_held_drop : g ∈ held (.drop g' :: h) ↔ g ∈ held h ∧ g ≠ g' := by
  rw [held, List.mem_filter, decide_eq_true_iff]

theorem get?_registry (h : History) (sandbox : Nat) : (registry h).get? sandbox =
    if droppedSince sandbox h = [] then (latest? sandbox h).map Prod.snd else none := by
  induction h with
  | nil => rfl
  | cons e past ih =>
    cases e with
    | register g call =>
      rw [registry, register, Table.get?_insert, ih, latest?, droppedSince]
      by_cases hs : g.sandbox = sandbox
      · simp only [hs, if_true, Option.map_some]
      · simp only [hs, Ne.symm hs, if_false]
    | drop g =>
      rw [registry, release, Table.get?_erase, ih, latest?, droppedSince]
      by_cases hs : g.sandbox = sandbox
      · simp only [hs, if_true, reduceCtorEq, if_false]
      · simp only [hs, Ne.symm hs, if_false]

theorem get?_registry_drop : (registry (.drop g :: h)).get? sandbox =
    if sandbox = g.sandbox then none else (registry h).get? sandbox :=
  Table.get?_erase _ _ _

theorem latest?_sandbox (hlatest : latest? sandbox h = some (g, call)) : g.sandbox = sandbox := by
  induction h with
  | nil => cases hlatest
  | cons e past ih =>
    cases e with
    | register g' call' =>
      unfold latest? at hlatest
      split at hlatest
      next hs =>
        cases hlatest
        exact hs
      next => exact ih hlatest
    | drop g' => exact ih hlatest

theorem sandbox_of_mem_droppedSince (hg : g ∈ droppedSince sandbox h) : g.sandbox = sandbox := by
  induction h with
  | nil => cases hg
  | cons e past ih =>
    cases e with
    | register g' call =>
      unfold droppedSince at hg
      split at hg
      · cases hg
      · exact ih hg
    | drop g' =>
      unfold droppedSince at hg
      split at hg
      next hs =>
        obtain rfl | hg := List.mem_cons.mp hg
        · exact hs
        · exact ih hg
      next => exact ih hg

theorem mem_held_iff_notMem_droppedSince (hlatest : latest? sandbox h = some (g, call)) :
    g ∈ held h ↔ g ∉ droppedSince sandbox h := by
  induction h with
  | nil => cases hlatest
  | cons e past ih =>
    have hsandbox := latest?_sandbox hlatest
    cases e with
    | register g' call' =>
      rw [mem_held_register, droppedSince]
      unfold latest? at hlatest
      split at hlatest
      next hs =>
        cases hlatest
        simp only [hs, if_true, true_or, List.not_mem_nil, not_false_iff]
      next hs =>
        have hne : g ≠ g' := fun h => hs (h ▸ hsandbox)
        simp only [hs, if_false, hne, false_or, ih hlatest]
    | drop g' =>
      rw [mem_held_drop, droppedSince, ih hlatest]
      by_cases hs : g'.sandbox = sandbox
      · simp only [hs, if_true, List.mem_cons, ne_eq, not_or, And.comm]
      · have hne : g ≠ g' := fun h => hs (h ▸ hsandbox)
        simp only [hs, if_false, hne, ne_eq, not_false_iff, and_true]

theorem mem_held_before (hl : h.Lawful) (hlatest : latest? sandbox h = some (g', call))
    (hg : g.sandbox = sandbox) :
    g ∈ held (before sandbox h) ↔ g ≠ g' ∧ (g ∈ held h ∨ g ∈ droppedSince sandbox h) := by
  induction h with
  | nil => cases hlatest
  | cons e past ih =>
    cases e with
    | register g'' call' =>
      obtain ⟨hfresh, hpast⟩ := hl
      rw [mem_held_register, before, droppedSince]
      unfold latest? at hlatest
      split at hlatest
      next hs =>
        cases hlatest
        simp only [hs, if_true, List.not_mem_nil, or_false]
        constructor
        · intro hheld
          exact ⟨fun h => hfresh (h ▸ hheld), .inr hheld⟩
        · rintro ⟨hne, heq | hheld⟩
          · exact absurd heq hne
          · exact hheld
      next hs =>
        have hne : g ≠ g'' := fun h => hs (h ▸ hg)
        simp only [hs, if_false, hne, false_or, ih hpast hlatest]
    | drop g'' =>
      obtain ⟨hheld, hpast⟩ := hl
      rw [mem_held_drop, before, droppedSince, ih hpast hlatest]
      by_cases hs : g''.sandbox = sandbox
      · obtain rfl | hne := Decidable.em (g = g'')
        · simp only [hs, if_true, hheld, List.mem_cons, true_or, or_true]
        · simp only [hs, if_true, hne, ne_eq, not_false_iff, and_true, List.mem_cons, false_or]
      · have hne : g ≠ g'' := fun h => hs (h ▸ hg)
        simp only [hs, if_false, hne, ne_eq, not_false_iff, and_true]

theorem exists_latest? (hcall : (registry h).get? sandbox = some call) :
    droppedSince sandbox h = [] ∧ ∃ g ∈ held h, latest? sandbox h = some (g, call) := by
  rw [get?_registry] at hcall
  split at hcall
  next hnone =>
    obtain ⟨⟨g, call'⟩, hlatest, rfl⟩ := Option.map_eq_some_iff.mp hcall
    refine ⟨hnone, g, (mem_held_iff_notMem_droppedSince hlatest).mpr ?_, hlatest⟩
    rw [hnone]
    exact List.not_mem_nil
  next => cases hcall

theorem get?_registry_eq_none (hnone : ∀ g ∈ held h, g.sandbox ≠ sandbox) :
    (registry h).get? sandbox = none := by
  cases hcall : (registry h).get? sandbox with
  | none => rfl
  | some call =>
    obtain ⟨-, g, hheld, hlatest⟩ := exists_latest? hcall
    exact absurd (latest?_sandbox hlatest) (hnone g hheld)

theorem Guarded.not_overlaps (hl : h.Lawful) (hg : h.Guarded)
    (hlatest : latest? sandbox h = some (g', call)) (hheld : g' ∈ held h) :
    ¬h.Overlaps sandbox := by
  rintro ⟨g, hbefore, hs⟩
  have hcall := hg.lasts sandbox g' call hlatest hheld
  obtain ⟨hnone, -⟩ := exists_latest? hcall
  obtain ⟨hne, hstill | hsince⟩ := (mem_held_before hl hlatest hs).mp hbefore
  · -- the earlier guard is held still, and ends the registration when it is dropped
    obtain rfl := latest?_sandbox hlatest
    have hspared := hg.spares g hstill g' call hne.symm hlatest hcall
    rw [get?_registry_drop, if_pos hs.symm] at hspared
    cases hspared
  · rw [hnone] at hsince
    cases hsince

theorem guarded_of_not_overlaps (hl : h.Lawful)
    (hapart : ∀ sandbox g call, latest? sandbox h = some (g, call) → g ∈ held h →
      ¬h.Overlaps sandbox) : h.Guarded where
  lasts sandbox g call hlatest hheld := by
    have hnone : droppedSince sandbox h = [] := by
      refine List.eq_nil_iff_forall_not_mem.mpr fun g' hsince => ?_
      have hne : g' ≠ g := fun h => (mem_held_iff_notMem_droppedSince hlatest).mp hheld (h ▸ hsince)
      have hs := sandbox_of_mem_droppedSince hsince
      have hbefore := (mem_held_before hl hlatest hs).mpr ⟨hne, .inr hsince⟩
      exact hapart sandbox g call hlatest hheld ⟨g', hbefore, hs⟩
    rw [get?_registry, if_pos hnone, hlatest, Option.map_some]
  ends sandbox hnone := get?_registry_eq_none hnone
  spares g hstill g' call hne hlatest hcall := by
    obtain ⟨-, g'', hheld, hlatest'⟩ := exists_latest? hcall
    rw [hlatest] at hlatest'
    cases hlatest'
    rw [get?_registry_drop, if_neg, hcall]
    intro hs
    have hbefore := (mem_held_before hl hlatest hs.symm).mpr ⟨hne.symm, .inl hstill⟩
    exact hapart g'.sandbox g' call hlatest hheld ⟨g, hbefore, hs.symm⟩

/-- A sandbox serves the call of its latest registration until a guard for it is dropped, whichever
registration the guard was given for. So registrations last as long as their guards if and only if
no guard for a sandbox was held when the registration that it has now was made. -/
theorem guarded_unless_overlapping (h : History) (hl : h.Lawful) :
    (∀ sandbox, (registry h).get? sandbox =
      if droppedSince sandbox h = [] then (latest? sandbox h).map Prod.snd else none) ∧
    (∀ sandbox call, (registry h).get? sandbox = some call →
      ∃ g ∈ held h, latest? sandbox h = some (g, call)) ∧
    (h.Guarded ↔ ∀ sandbox g call, latest? sandbox h = some (g, call) → g ∈ held h →
      ¬h.Overlaps sandbox) :=
  ⟨get?_registry h, fun _ _ hcall => (exists_latest? hcall).2,
    fun hg _ _ _ hlatest hheld => hg.not_overlaps hl hlatest hheld, guarded_of_not_overlaps hl⟩

theorem guarded_unless_overlapping_in_turn :
    let outer : Guard := ⟨0, 7⟩
    let inner : Guard := ⟨1, 7⟩
    let h : History := [.drop inner, .register inner { value := 2 }, .register outer { value := 1 }]
    h.Lawful ∧ outer ∈ held h ∧ h.Overlaps 7 ∧ h.Guarded := by
  intro outer inner h
  have hl : h.Lawful := by decide
  refine ⟨hl, by decide, ⟨outer, by decide⟩, ?_⟩
  refine (guarded_unless_overlapping h hl).2.2.mpr fun sandbox g call hlatest hheld => ?_
  obtain rfl : g = outer := List.mem_singleton.mp hheld
  obtain rfl := latest?_sandbox hlatest
  have hinner : latest? 7 h = some (inner, { value := 2 }) := by decide
  have hsame : inner = outer := congrArg Prod.fst (Option.some.inj (hinner.symm.trans hlatest))
  exact absurd hsame (by decide)

theorem outlived_guard_ends_another :
    let earlier : Guard := ⟨0, 7⟩
    let later : Guard := ⟨1, 7⟩
    let h : History :=
      [.drop earlier, .register later { value := 2 }, .register earlier { value := 1 }]
    h.Lawful ∧ latest? 7 h = some (later, { value := 2 }) ∧ later ∈ held h ∧
      (registry h).get? 7 = none ∧ ¬h.Guarded := by
  intro earlier later h
  refine ⟨by decide, by decide, by decide, by decide, fun hg => ?_⟩
  have hlasts := hg.lasts 7 later { value := 2 } (by decide) (by decide)
  exact absurd hlasts (by decide)

end History

end MeteredContracts.Registry
