import MeteredContracts.Sandbox.Setup

namespace MeteredContracts

section Except

variable {ε δ α β : Type}

theorem eq_ok_of_bind {x : Except ε α} {f : α → Except ε β} {b : β} (h : x >>= f = .ok b) :
    ∃ a, x = .ok a ∧ f a = .ok b := by
  cases x with
  | error e => cases h
  | ok a => exact ⟨a, rfl, h⟩

theorem eq_ok_of_mapError {x : Except ε α} {f : ε → δ} {a : α} (h : x.mapError f = .ok a) :
    x = .ok a := by
  cases x with
  | error e => cases h
  | ok b =>
    cases h
    rfl

end Except

theorem HostFunction.mem_of_find? {fs : List HostFunction} {module name : String}
    {f : HostFunction} (h : find? fs module name = some f) : f ∈ fs :=
  List.mem_of_find?_eq_some h

theorem linkImport_mem {host : List HostFunction} {i : Wasm.Import} {f : HostFunction}
    (h : linkImport host i = .ok f) : f ∈ host := by
  unfold linkImport at h
  cases hf : HostFunction.find? host i.module i.name with
  | none =>
    rw [hf] at h
    cases h
  | some g =>
    rw [hf] at h
    dsimp only at h
    split at h
    · split at h
      · cases h
        exact HostFunction.mem_of_find? hf
      · cases h
    · cases h

theorem mapM_linkImport_mem {host : List HostFunction} {imports : List Wasm.Import}
    {links : List HostFunction} (h : imports.mapM (linkImport host) = .ok links) :
    ∀ f ∈ links, f ∈ host := by
  induction imports generalizing links with
  | nil =>
    cases h
    simp
  | cons i imports ih =>
    rw [List.mapM_cons] at h
    obtain ⟨f, hi, h⟩ := eq_ok_of_bind h
    obtain ⟨rest, hr, h⟩ := eq_ok_of_bind h
    cases h
    intro g hg
    obtain rfl | hg := List.mem_cons.mp hg
    · exact linkImport_mem hi
    · exact ih hr g hg

theorem link_mem {host : List HostFunction} {imports : List Wasm.Import}
    {links : List HostFunction} (h : link host imports = .ok links) : ∀ f ∈ links, f ∈ host := by
  unfold link at h
  split at h
  · cases h
  · exact mapM_linkImport_mem h

namespace Sandbox

variable {host : List HostFunction} {config : EngineConfig} {execution : ExecutionConfig} {id : Nat}
  {module : Wasm.Module} {fuel : UInt64} {w : World} {engine : Engine} {s : Sandbox}

theorem prepare_eq_ok (h : prepare host config execution id module fuel w engine = .ok s) :
    ∃ links program memory deadline, link host module.imports = .ok links ∧
      deadline = (if config.epochInterruption then
        some (w.clock.deadline engine.pace config.tick.toNat execution.timeoutMs.toNat) else none) ∧
      s = { box := ⟨id, module, program, links.toArray, execution.timeoutMs, deadline,
              engine.ceiling⟩
            guest := ⟨memory, module.initialGlobals, .new fuel⟩ } := by
  unfold prepare at h
  obtain ⟨links, hl, h⟩ := eq_ok_of_bind h
  have hlink := eq_ok_of_mapError hl
  dsimp only at h
  split at h
  · cases h
  · obtain ⟨memory, -, h⟩ := eq_ok_of_bind h
    obtain ⟨table, -, h⟩ := eq_ok_of_bind h
    obtain ⟨memory, -, h⟩ := eq_ok_of_bind h
    cases h
    exact ⟨links, _, _, _, hlink, rfl, rfl⟩

structure Fresh (host : List HostFunction) (id : Nat) (module : Wasm.Module) (fuel : UInt64)
    (s : Sandbox) : Prop where
  id : s.id = id
  module : s.box.module = module
  meter : s.guest.meter = .new fuel
  result : s.result = none
  delegate : s.delegate = none
  links : ∀ f ∈ s.box.links, f ∈ host

theorem fresh_of_prepare (h : prepare host config execution id module fuel w engine = .ok s) :
    Fresh host id module fuel s := by
  obtain ⟨links, program, memory, deadline, hl, -, rfl⟩ := prepare_eq_ok h
  exact ⟨rfl, rfl, rfl, rfl, rfl, fun f hf => link_mem hl f (by simpa using hf)⟩

theorem timeless_of_prepare (he : config.epochInterruption = false)
    (h : prepare host config execution id module fuel w engine = .ok s) :
    s.box.deadline = none := by
  obtain ⟨links, program, memory, deadline, -, hd, rfl⟩ := prepare_eq_ok h
  rw [he] at hd
  exact hd

theorem prepare_of_timeless {v : World} (he : config.epochInterruption = false)
    (hr : w.registry = v.registry) :
    prepare host config execution id module fuel w engine =
      prepare host config execution id module fuel v engine := by
  unfold prepare
  simp only [hr, he, Bool.false_eq_true, if_false]

end Sandbox

end MeteredContracts
