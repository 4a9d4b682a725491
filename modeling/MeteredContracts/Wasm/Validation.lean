import MeteredContracts.Wasm.Binary

namespace MeteredContracts.Wasm.Validation

/-- The types of the operands, where `none` stands for one that unreachable code leaves open. After
an unconditional branch there are as many of those as are asked for. -/
structure Operands where
  types : List (Option ValueType)
  open_ : Bool

namespace Operands

def push (s : Operands) (t : ValueType) : Operands := { s with types := some t :: s.types }

def pushAll (s : Operands) (ts : List ValueType) : Operands := ts.foldl push s

def popAny (s : Operands) : Option (Option ValueType × Operands) :=
  match s.types with
  | t :: ts => some (t, { s with types := ts })
  | [] => if s.open_ then some (none, s) else none

def pop (s : Operands) (t : ValueType) : Option Operands :=
  match s.popAny with
  | some (some t', s) => if t' = t then some s else none
  | some (none, s) => some s
  | none => none

def popAll (s : Operands) (ts : List ValueType) : Option Operands := ts.reverse.foldlM pop s

def unreachable : Operands := ⟨[], true⟩

end Operands

structure Context where
  functions : Array FunctionType
  globals : Array GlobalType
  hasMemory : Bool
  hasTable : Bool
  locals : Array ValueType
  results : List ValueType
  /-- What a branch to each enclosing label carries, the innermost first. -/
  labels : List (List ValueType)

def Width.type : Width → ValueType
  | .w32 => .i32
  | .w64 => .i64

def isComparison (op : Binary) : Bool := Binary.comparisons.contains op

def Context.label? (c : Context) (i : Nat) : Option (List ValueType) :=
  (c.labels ++ [c.results])[i]?

mutual

def checkOne (c : Context) (s : Operands) : Instruction → Option Operands
  | .unreachable => some .unreachable
  | .nop => some s
  | .block type body => do
    let s ← s.popAll type.params
    checkBody { c with labels := type.results :: c.labels } type body
    some (s.pushAll type.results)
  | .loop type body => do
    let s ← s.popAll type.params
    checkBody { c with labels := type.params :: c.labels } type body
    some (s.pushAll type.results)
  | .ifElse type yes no => do
    let s ← (← s.pop .i32).popAll type.params
    let c := { c with labels := type.results :: c.labels }
    checkBody c type yes
    checkBody c type no
    some (s.pushAll type.results)
  | .br label => do
    discard (s.popAll (← c.label? label))
    some .unreachable
  | .brIf label => do
    let types ← c.label? label
    some ((← (← s.pop .i32).popAll types).pushAll types)
  | .brTable labels other => do
    let s ← s.pop .i32
    let types ← c.label? other
    for label in labels do
      let types' ← c.label? label
      if types'.length ≠ types.length then none
      discard (s.popAll types')
    discard (s.popAll types)
    some .unreachable
  | .ret => do
    discard (s.popAll c.results)
    some .unreachable
  | .call f => do
    let type ← c.functions[f]?
    some ((← s.popAll type.params).pushAll type.results)
  | .callIndirect type => do
    if !c.hasTable then none
    some ((← (← s.pop .i32).popAll type.params).pushAll type.results)
  | .drop => do
    let (_, s) ← s.popAny
    some s
  | .select => do
    let (a, s) ← (← s.pop .i32).popAny
    let (b, s) ← s.popAny
    if a.isSome && b.isSome && a ≠ b then none
    some { s with types := a.or b :: s.types }
  | .localGet i => do some (s.push (← c.locals[i]?))
  | .localSet i => do s.pop (← c.locals[i]?)
  | .localTee i => do
    let t ← c.locals[i]?
    some ((← s.pop t).push t)
  | .globalGet i => do some (s.push (← c.globals[i]?).value)
  | .globalSet i => do
    let g ← c.globals[i]?
    if !g.mutable then none
    s.pop g.value
  | .load width _ _ => do
    if !c.hasMemory then none
    some ((← s.pop .i32).push (Width.type width))
  | .store width _ => do
    if !c.hasMemory then none
    (← s.pop (Width.type width)).pop .i32
  | .memorySize => do
    if !c.hasMemory then none
    some (s.push .i32)
  | .memoryGrow => do
    if !c.hasMemory then none
    some ((← s.pop .i32).push .i32)
  | .memoryCopy | .memoryFill => do
    if !c.hasMemory then none
    s.popAll [.i32, .i32, .i32]
  | .const type _ => some (s.push type)
  | .unary width op => do
    let s ← s.pop (Width.type width)
    some (s.push (if op = .eqz then .i32 else Width.type width))
  | .binary width op => do
    let s ← (← s.pop (Width.type width)).pop (Width.type width)
    some (s.push (if isComparison op then .i32 else Width.type width))
  | .wrap => do some ((← s.pop .i64).push .i32)
  | .extend _ => do some ((← s.pop .i32).push .i64)

def checkAll (c : Context) (s : Operands) : List Instruction → Option Operands
  | [] => some s
  | i :: rest => do checkAll c (← checkOne c s i) rest

def checkBody (c : Context) (type : FunctionType) (body : List Instruction) : Option Unit := do
  let s ← checkAll c (Operands.pushAll ⟨[], false⟩ type.params) body
  let s ← s.popAll type.results
  if s.types.isEmpty then some () else none

end

def checkFunction (c : Context) (f : Function) : Bool :=
  (checkBody { c with
      locals := (f.type.params ++ f.locals).toArray
      results := f.type.results
      labels := [] }
    ⟨[], f.type.results⟩ f.body).isSome

structure Space where
  functions : List FunctionType
  globals : List GlobalType
  importedGlobals : List GlobalType
  tables : Nat
  memories : Nat

def Space.of (s : Binary.Sections) : Space :=
  let functions := s.imports.filterMap fun i => match i.kind with
    | .function type => some type
    | _ => none
  let globals := s.imports.filterMap fun i => match i.kind with
    | .global type => some type
    | _ => none
  { functions := functions ++ s.functions
    globals := globals ++ s.globals.map (·.type)
    importedGlobals := globals
    tables := s.imports.countP (fun i => i.kind matches .table _) + s.tables.length
    memories := s.imports.countP (fun i => i.kind matches .memory _) + s.memories.length }

def Space.constant (space : Space) (type : ValueType) : ConstExpr → Bool
  | .const t _ => t == type
  | .global i =>
    match space.importedGlobals[i]? with
    | some g => !g.mutable && g.value == type
    | none => false

def Space.exports (space : Space) (e : Export) : Bool :=
  match e.kind with
  | .function => e.index < space.functions.length
  | .table => e.index < space.tables
  | .memory => e.index < space.memories
  | .global => e.index < space.globals.length

def consistent (s : Binary.Sections) (space : Space) : Bool :=
  s.bodies.length == s.functions.length
    && space.tables ≤ 1
    && space.memories ≤ 1
    && s.globals.all (fun g => space.constant g.type.value g.init)
    && s.exports.all space.exports
    && (s.exports.map (·.name)).Nodup
    && s.start.all (fun f => space.functions[f]? == some ⟨[], []⟩)
    && s.elements.all (fun e => space.tables == 1 && space.constant .i32 e.offset
        && e.functions.all (· < space.functions.length))
    && s.data.all (fun d => space.memories == 1 && space.constant .i32 d.offset)

def readFunctions (s : Binary.Sections) (space : Space) : Option (List Function) :=
  let context : Context := {
    functions := space.functions.toArray
    globals := space.globals.toArray
    hasMemory := space.memories == 1
    hasTable := space.tables == 1
    locals := #[]
    results := []
    labels := [] }
  (s.functions.zip s.bodies).mapM fun (type, bytes) => do
    let f ← Binary.body s.types type bytes
    if checkFunction context f then some f else none

end Validation

inductive Rejection
  | malformed
  | illTyped
  deriving DecidableEq, Repr

def Module.ofBytes (bs : Bytes) : Except Rejection Module :=
  match Binary.sections bs with
  | none => .error .malformed
  | some s =>
    let space := Validation.Space.of s
    if !Validation.consistent s space then .error .malformed
    else match Validation.readFunctions s space with
      | none => .error .illTyped
      | some functions => .ok {
          imports := s.imports
          functions := functions.toArray
          table := s.tables.head?
          memory := s.memories.head?
          globals := s.globals
          exports := s.exports
          start := s.start
          elements := s.elements
          data := s.data }

end MeteredContracts.Wasm
