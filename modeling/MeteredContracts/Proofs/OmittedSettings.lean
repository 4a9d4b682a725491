import Mathlib.Data.List.Forall2
import MeteredContracts.Config.Decode

namespace MeteredContracts

namespace Document

def valuesOf (name : String) (fields : List (String × Document)) : List Document :=
  (fields.filter (·.1 == name)).map (·.2)

def Agree (names : List String) (same : String → Document → Document → Prop)
    (fields fields' : List (String × Document)) : Prop :=
  ∀ name ∈ names, List.Forall₂ (same name) (valuesOf name fields) (valuesOf name fields')

inductive Alike (names : List String) (same : String → Document → Document → Prop) :
    Document → Document → Prop
  | refl (d : Document) : Alike names same d d
  | table {fields fields' : List (String × Document)} (h : Agree names same fields fields') :
    Alike names same (.table fields) (.table fields')

def keep (kept : String → Bool) : Document → Document
  | .table fields => .table (fields.filter (kept ·.1))
  | d => d

def abridge (tables : String → Bool) (fields : String → String → Bool) : Document → Document
  | .table sections =>
    (Document.table (sections.map fun s => (s.1, s.2.keep (fields s.1)))).keep tables
  | d => d

structure Lenient {α : Type} (read : Document → Option α) (write : α → Document)
    (names : List String) (unset : α) (restrict : α → (String → Bool) → α) : Prop where
  alike : ∀ {d d'}, Alike names (fun _ => Eq) d d' → read d = read d'
  keep : ∀ a kept, read ((write a).keep kept) = some (restrict a kept)
  all : ∀ a, restrict a (fun _ => true) = a
  none : ∀ a, restrict a (fun _ => false) = unset

section Reading

variable {names : List String} {same : String → Document → Document → Prop} {name : String}
  {fields fields' : List (String × Document)} {d d' : Document} {α β : Type}
  {read : Document → Option α} {a unset : α} {surplus : Surplus}

theorem valuesOf_filter (kept : String → Bool) (name : String)
    (fields : List (String × Document)) :
    valuesOf name (fields.filter (kept ·.1)) = if kept name then valuesOf name fields else [] := by
  have hkept : ∀ e ∈ fields, (e.1 == name && kept e.1) = (e.1 == name && kept name) := by
    intro e _
    by_cases h : e.1 = name
    · rw [h]
    · rw [beq_false_of_ne h, Bool.false_and, Bool.false_and]
  rw [valuesOf, List.filter_filter, List.filter_congr hkept]
  cases kept name with
  | true => simp only [Bool.and_true, if_true, valuesOf]
  | false =>
    simp only [Bool.and_false, List.filter_false, List.map_nil, Bool.false_eq_true, if_false]

theorem record_table (surplus : Surplus) (names : List String)
    (fields : List (String × Document)) :
    (Document.table fields).record surplus names =
      if names.all fun name => (valuesOf name fields).length ≤ 1 then some ⟨fields⟩ else none := by
  simp only [record, valuesOf, List.length_map]

theorem optional_eq (name : String) (fields : List (String × Document))
    (read : Document → Option α) (unset : α) :
    Fields.optional ⟨fields⟩ name read unset =
      match valuesOf name fields with
      | [] => some unset
      | d :: _ => read d := by
  induction fields with
  | nil => rfl
  | cons e fields ih =>
    rw [Fields.optional, List.lookup_cons, valuesOf, List.filter_cons, BEq.comm]
    cases e.1 == name with
    | true => rfl
    | false => exact ih

theorem Agree.optional (h : Agree names same fields fields') (hname : name ∈ names)
    (hread : ∀ d d', same name d d' → read d = read d') :
    Fields.optional ⟨fields⟩ name read unset = Fields.optional ⟨fields'⟩ name read unset := by
  have hvalues := h name hname
  rw [optional_eq, optional_eq]
  generalize valuesOf name fields = values at hvalues
  generalize valuesOf name fields' = values' at hvalues
  cases hvalues with
  | nil => rfl
  | cons hd _ => exact hread _ _ hd

theorem Agree.optional_eq (h : Agree names (fun _ => Eq) fields fields') (hname : name ∈ names) :
    Fields.optional ⟨fields⟩ name read unset = Fields.optional ⟨fields'⟩ name read unset :=
  h.optional hname fun _ _ => congrArg read

theorem Alike.record_bind (h : Alike names same d d') {k : Fields → Option β}
    (hk : ∀ fields fields', Agree names same fields fields' → k ⟨fields⟩ = k ⟨fields'⟩) :
    d.record surplus names >>= k = d'.record surplus names >>= k := by
  cases h with
  | refl => rfl
  | @table fields fields' h =>
    have honce : (names.all fun name => (valuesOf name fields).length ≤ 1) =
        names.all fun name => (valuesOf name fields').length ≤ 1 := by
      rw [Bool.eq_iff_iff, List.all_eq_true, List.all_eq_true]
      refine forall₂_congr fun name hname => ?_
      rw [(h name hname).length_eq]
    rw [record_table, record_table, honce]
    split
    · exact hk fields fields' h
    · rfl

theorem record_keep {k : Fields → Option β}
    (h : (Document.table fields).record surplus names = some ⟨fields⟩) (kept : String → Bool) :
    ((Document.table fields).keep kept).record surplus names >>= k =
      k ⟨fields.filter (kept ·.1)⟩ := by
  rw [record_table] at h
  split at h
  case isFalse => cases h
  case isTrue honce =>
    rw [keep, record_table, if_pos]
    · rfl
    · rw [List.all_eq_true] at honce ⊢
      intro name hname
      rw [valuesOf_filter]
      split
      · exact honce name hname
      · rfl

theorem optional_keep {k : α → Option β} (hvalue : valuesOf name fields = [d])
    (hread : read d = some a) (kept : String → Bool) :
    Fields.optional ⟨fields.filter (kept ·.1)⟩ name read unset >>= k =
      k (if kept name then a else unset) := by
  rw [optional_eq, valuesOf_filter, hvalue]
  cases kept name with
  | true =>
    show read d >>= k = k a
    rw [hread]
    rfl
  | false => rfl

theorem bool?_bool (b : Bool) : bool? (.bool b) = some b := rfl

theorem nat?_natCast {bound n : Nat} (h : n < bound) : nat? bound (.int n) = some n :=
  if_pos ⟨Int.natCast_nonneg n, Int.ofNat_lt.mpr h⟩

theorem uint32?_toNat (n : UInt32) : uint32? (.int n.toNat) = some n := by
  rw [uint32?, nat?_natCast n.toNat_lt, Option.map_some, UInt32.ofNat_toNat]

theorem uint64?_toNat (n : UInt64) : uint64? (.int n.toNat) = some n := by
  rw [uint64?, nat?_natCast n.toNat_lt, Option.map_some, UInt64.ofNat_toNat]

variable {write : α → Document} {restrict : α → (String → Bool) → α}

theorem Lenient.ite_restrict (h : Lenient read write names unset restrict) (present : Bool)
    (kept : String → Bool) :
    (if present then restrict a kept else unset) =
      restrict a fun field => present && kept field := by
  cases present with
  | true => rfl
  | false => exact (h.none a).symm

theorem Lenient.restrict_const (h : Lenient read write names unset restrict) (present : Bool) :
    (restrict a fun _ => present) = if present then a else unset := by
  cases present with
  | true => exact h.all a
  | false => exact h.none a

end Reading

end Document

open Document (Surplus Lenient record_keep optional_keep bool?_bool uint32?_toNat uint64?_toNat)

def EngineConfig.restrict (c : EngineConfig) (kept : String → Bool) : EngineConfig :=
  let unset : EngineConfig := {}
  { pooling := if kept "pooling_allocator" then c.pooling else unset.pooling
    maxInstances := if kept "max_instances" then c.maxInstances else unset.maxInstances
    instanceMemoryMb :=
      if kept "instance_memory_mb" then c.instanceMemoryMb else unset.instanceMemoryMb
    epochInterruption :=
      if kept "epoch_interruption" then c.epochInterruption else unset.epochInterruption
    epochTickMs := if kept "epoch_tick_ms" then c.epochTickMs else unset.epochTickMs }

def ExecutionConfig.restrict (c : ExecutionConfig) (kept : String → Bool) : ExecutionConfig :=
  let unset : ExecutionConfig := {}
  { defaultFuel := if kept "default_fuel" then c.defaultFuel else unset.defaultFuel
    timeoutMs := if kept "timeout_ms" then c.timeoutMs else unset.timeoutMs
    maxMemoryMb := if kept "max_memory_mb" then c.maxMemoryMb else unset.maxMemoryMb
    maxCallDepth := if kept "max_call_depth" then c.maxCallDepth else unset.maxCallDepth }

def CacheConfig.restrict (c : CacheConfig) (kept : String → Bool) : CacheConfig :=
  let unset : CacheConfig := {}
  { maxBytes := if kept "max_bytes" then c.maxBytes else unset.maxBytes }

def ValidationConfig.restrict (c : ValidationConfig) (kept : String → Bool) : ValidationConfig :=
  let unset : ValidationConfig := {}
  { enabled := if kept "enabled" then c.enabled else unset.enabled
    maxModuleBytes := if kept "max_module_bytes" then c.maxModuleBytes else unset.maxModuleBytes }

def Config.restrict (c : Config) (kept : String → String → Bool) : Config where
  engine := c.engine.restrict (kept "engine")
  execution := c.execution.restrict (kept "execution")
  cache := c.cache.restrict (kept "cache")
  validation := c.validation.restrict (kept "validation")

def Config.reset (c : Config) (table : String) : Config where
  engine := if "engine" = table then {} else c.engine
  execution := if "execution" = table then {} else c.execution
  cache := if "cache" = table then {} else c.cache
  validation := if "validation" = table then {} else c.validation

def Config.fields : String → List String
  | "engine" => ["pooling_allocator", "max_instances", "instance_memory_mb", "epoch_interruption",
    "epoch_tick_ms"]
  | "execution" => ["default_fuel", "timeout_ms", "max_memory_mb", "max_call_depth"]
  | "cache" => ["max_bytes"]
  | "validation" => ["enabled", "max_module_bytes"]
  | _ => []

def Config.Alike : Document → Document → Prop :=
  Document.Alike ["engine", "execution", "cache", "validation"] fun table =>
    Document.Alike (Config.fields table) fun _ => Eq

theorem EngineConfig.lenient (surplus : Surplus) :
    Lenient (EngineConfig.ofDocument surplus) EngineConfig.toDocument (Config.fields "engine") {}
      EngineConfig.restrict where
  alike h := by
    refine h.record_bind fun fields fields' hagree => ?_
    simp +decide only [hagree.optional_eq]
  keep c kept := by
    refine Eq.trans (record_keep rfl kept) ?_
    refine Eq.trans (optional_keep rfl (bool?_bool _) kept) ?_
    refine Eq.trans (optional_keep rfl (uint32?_toNat _) kept) ?_
    refine Eq.trans (optional_keep rfl (uint32?_toNat _) kept) ?_
    refine Eq.trans (optional_keep rfl (bool?_bool _) kept) ?_
    exact optional_keep rfl (uint64?_toNat _) kept
  all _ := rfl
  none _ := rfl

theorem ExecutionConfig.lenient (surplus : Surplus) :
    Lenient (ExecutionConfig.ofDocument surplus) ExecutionConfig.toDocument
      (Config.fields "execution") {} ExecutionConfig.restrict where
  alike h := by
    refine h.record_bind fun fields fields' hagree => ?_
    simp +decide only [hagree.optional_eq]
  keep c kept := by
    refine Eq.trans (record_keep rfl kept) ?_
    refine Eq.trans (optional_keep rfl (uint64?_toNat _) kept) ?_
    refine Eq.trans (optional_keep rfl (uint64?_toNat _) kept) ?_
    refine Eq.trans (optional_keep rfl (uint32?_toNat _) kept) ?_
    exact optional_keep rfl (uint32?_toNat _) kept
  all _ := rfl
  none _ := rfl

theorem CacheConfig.lenient (surplus : Surplus) :
    Lenient (CacheConfig.ofDocument surplus) CacheConfig.toDocument (Config.fields "cache") {}
      CacheConfig.restrict where
  alike h := by
    refine h.record_bind fun fields fields' hagree => ?_
    simp +decide only [hagree.optional_eq]
  keep c kept := by
    refine Eq.trans (record_keep rfl kept) ?_
    exact optional_keep rfl (uint64?_toNat _) kept
  all _ := rfl
  none _ := rfl

theorem ValidationConfig.lenient (surplus : Surplus) :
    Lenient (ValidationConfig.ofDocument surplus) ValidationConfig.toDocument
      (Config.fields "validation") {} ValidationConfig.restrict where
  alike h := by
    refine h.record_bind fun fields fields' hagree => ?_
    simp +decide only [hagree.optional_eq]
  keep c kept := by
    refine Eq.trans (record_keep rfl kept) ?_
    refine Eq.trans (optional_keep rfl (bool?_bool _) kept) ?_
    exact optional_keep rfl (uint64?_toNat _) kept
  all _ := rfl
  none _ := rfl

namespace Config

theorem ofDocument_alike (surplus : Surplus) {d d' : Document} (h : Alike d d') :
    ofDocument surplus d = ofDocument surplus d' := by
  refine h.record_bind fun fields fields' hagree => ?_
  rw [hagree.optional (by decide) fun _ _ => (EngineConfig.lenient surplus).alike,
    hagree.optional (by decide) fun _ _ => (ExecutionConfig.lenient surplus).alike,
    hagree.optional (by decide) fun _ _ => (CacheConfig.lenient surplus).alike,
    hagree.optional (by decide) fun _ _ => (ValidationConfig.lenient surplus).alike]

theorem ofDocument_abridge (surplus : Surplus) (c : Config) (tables : String → Bool)
    (fields : String → String → Bool) :
    ofDocument surplus (c.toDocument.abridge tables fields) =
      some (c.restrict fun table field => tables table && fields table field) := by
  refine Eq.trans (record_keep rfl tables) ?_
  refine Eq.trans (optional_keep rfl ((EngineConfig.lenient surplus).keep _ _) tables) ?_
  refine Eq.trans (optional_keep rfl ((ExecutionConfig.lenient surplus).keep _ _) tables) ?_
  refine Eq.trans (optional_keep rfl ((CacheConfig.lenient surplus).keep _ _) tables) ?_
  refine Eq.trans (optional_keep rfl ((ValidationConfig.lenient surplus).keep _ _) tables) ?_
  -- a table that is left out is as good as one that has lost all its fields
  rw [(EngineConfig.lenient surplus).ite_restrict, (ExecutionConfig.lenient surplus).ite_restrict,
    (CacheConfig.lenient surplus).ite_restrict, (ValidationConfig.lenient surplus).ite_restrict]
  rfl

theorem restrict_ne (c : Config) (table : String) :
    (c.restrict fun table' _ => table' != table) = c.reset table := by
  rw [restrict, (EngineConfig.lenient .refused).restrict_const,
    (ExecutionConfig.lenient .refused).restrict_const,
    (CacheConfig.lenient .refused).restrict_const,
    (ValidationConfig.lenient .refused).restrict_const]
  simp only [bne_iff_ne, ne_eq, ite_not, reset]

/-- Settings are read whatever is left out of their document, at either level, and whatever comes in
that they do not have: those that are kept as they are, and the others as their defaults. So all are
read back from the full document, and where a table is missing, or there is nothing in it, it is
read as its default. -/
theorem omitted_settings_have_defaults (surplus : Surplus) :
    (∀ d d', Alike d d' → ofDocument surplus d = ofDocument surplus d') ∧
    (∀ (c : Config) (tables : String → Bool) (fields : String → String → Bool) (d : Document),
      Alike d (c.toDocument.abridge tables fields) →
        ofDocument surplus d =
          some (c.restrict fun table field => tables table && fields table field)) ∧
    (∀ c : Config, ofDocument surplus c.toDocument = some c) ∧
    ∀ (c : Config) (table : String),
      ofDocument surplus (c.toDocument.abridge (· != table) fun _ _ => true) =
          some (c.reset table) ∧
        ofDocument surplus (c.toDocument.abridge (fun _ => true) fun table' _ => table' != table) =
          some (c.reset table) := by
  refine ⟨fun d d' => ofDocument_alike surplus, fun c tables fields d h => ?_, fun c => ?_,
    fun c table => ⟨?_, ?_⟩⟩
  · rw [ofDocument_alike surplus h, ofDocument_abridge]
  · exact ofDocument_abridge surplus c (fun _ => true) fun _ _ => true
  · rw [ofDocument_abridge, ← restrict_ne]
    simp only [Bool.and_true]
  · rw [ofDocument_abridge, ← restrict_ne]
    simp only [Bool.true_and]

theorem omitted_settings_have_defaults_beside_unknown_ones :
    let c : Config := { engine := { pooling := false, maxInstances := 500 }, cache := ⟨1024⟩ }
    let tables := (["engine", "cache"].contains ·)
    let fields (_ : String) := (["max_instances", "max_bytes"].contains ·)
    let d : Document := .table [("note", .text "small"),
      ("cache", .table [("policy", .null), ("max_bytes", .int 1024)]),
      ("engine", .table [("max_instances", .int 500)])]
    Alike d (c.toDocument.abridge tables fields) ∧
      ofDocument .refused d = some { engine := { maxInstances := 500 }, cache := ⟨1024⟩ } := by
  intro c tables fields d
  have hcache : Document.Alike (Config.fields "cache") (fun _ => Eq)
      (.table [("policy", .null), ("max_bytes", .int 1024)])
      (.table [("max_bytes", .int 1024)]) :=
    .table (List.forall_mem_singleton.mpr (.cons rfl .nil))
  have halike : Alike d (c.toDocument.abridge tables fields) :=
    .table (List.forall_mem_cons.mpr ⟨.cons (.refl _) .nil, List.forall_mem_cons.mpr ⟨.nil,
      List.forall_mem_cons.mpr ⟨.cons hcache .nil, List.forall_mem_singleton.mpr .nil⟩⟩⟩)
  exact ⟨halike, (omitted_settings_have_defaults .refused).2.1 c tables fields d halike⟩

end Config

end MeteredContracts
