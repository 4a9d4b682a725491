import MeteredContracts.Fuel
import MeteredContracts.Wasm.Memory
import MeteredContracts.Wasm.Module

/-!
The guest machine: one instruction at a time, with its own stack of activations, which is bounded by
their number and not by their size. It knows nothing of the host. A call of an imported function
pauses it with the arguments, and `resume` takes it on from there with the results.
-/

namespace MeteredContracts.Wasm

structure Label where
  arity : Nat
  /-- The body to run again, for a loop. -/
  body : Option (List Instruction)
  operands : List Cell
  rest : List Instruction
  deriving Inhabited

structure Activation where
  arity : Nat
  locals : Array Cell
  operands : List Cell
  rest : List Instruction
  labels : List Label
  deriving Inhabited

structure State where
  memory : Memory
  globals : Array Cell
  meter : Meter

structure Machine where
  state : State
  active : Activation
  callers : List Activation
  depth : Nat
  /-- How many safe points may still be passed before the deadline, where there is one. -/
  patience : Option Nat

structure Program where
  imported : Array FunctionType
  functions : Array Function
  table : Array (Option Nat)
  maxDepth : Nat

inductive Pause
  | call (function : Nat) (args : List Cell)
  | finished (results : List Cell)
  | trapped (trap : Trap)

inductive Step
  | next (m : Machine)
  | pause (m : Machine) (why : Pause)

def Step.machine : Step → Machine
  | .next m => m
  | .pause m _ => m

namespace Program

def type? (p : Program) (function : Nat) : Option FunctionType :=
  if function < p.imported.size then p.imported[function]?
  else p.functions[function - p.imported.size]?.map (·.type)

end Program

namespace Machine

def setMeter (m : Machine) (meter : Meter) : Machine := { m with state := { m.state with meter } }

def settle (m : Machine) : Machine := m.setMeter m.state.meter.settle

def pay (m : Machine) : Machine := m.setMeter (m.state.meter.charge 1)

def trap (m : Machine) (t : Trap) : Step := .pause (m.setMeter m.state.meter.forgive) (.trapped t)

def safePoint (m : Machine) : Step :=
  if m.state.meter.isEmpty then trap m.settle .outOfFuel
  else match m.patience with
    | none => .next m
    | some 0 => trap m .interrupted
    | some (n + 1) => .next { m with patience := some n }

def enter (p : Program) (m : Machine) (f : Function) (args : List Cell)
    (callers : List Activation) : Step :=
  if p.maxDepth ≤ m.depth then trap m .stackOverflow
  else
    let active := ⟨f.type.results.length, (args ++ f.locals.map fun _ => 0).toArray, [], f.body, []⟩
    safePoint { m.pay with active, callers, depth := m.depth + 1 }

def call (p : Program) (m : Machine) (index : Nat) : Step :=
  let m := m.settle
  match p.type? index with
  | none => trap m .unreachable
  | some type =>
    let count := type.params.length
    let args := (m.active.operands.take count).reverse
    let caller := { m.active with operands := m.active.operands.drop count }
    if index < p.imported.size then .pause { m with active := caller } (.call index args)
    else match p.functions[index - p.imported.size]? with
      | none => trap m .unreachable
      | some f => enter p m f args (caller :: m.callers)

def leave (m : Machine) : Step :=
  let results := m.active.operands.take m.active.arity
  let m := m.settle
  match m.callers with
  | [] => .pause m (.finished results)
  | caller :: callers =>
    let active := { caller with operands := results ++ caller.operands }
    .next { m with active, callers, depth := m.depth - 1 }

def branch (m : Machine) (depth : Nat) : Step :=
  match m.active.labels.drop depth with
  | [] => leave m
  | label :: labels =>
    let carried := m.active.operands.take label.arity ++ label.operands
    match label.body with
    | none =>
      .next { m with active := { m.active with operands := carried, rest := label.rest, labels } }
    | some body =>
      safePoint { m with active := { m.active with
        operands := m.active.operands.take label.arity
        rest := body
        labels := label :: labels } }

def pushBlock (a : Activation) (type : FunctionType) (loop : Option (List Instruction))
    (body : List Instruction) : Activation :=
  let params := type.params.length
  { a with
    operands := a.operands.take params
    rest := body
    labels := ⟨if loop.isSome then params else type.results.length, loop, a.operands.drop params,
      a.rest⟩ :: a.labels }

def popBlock (a : Activation) (label : Label) (labels : List Label) : Activation :=
  { a with operands := a.operands ++ label.operands, rest := label.rest, labels }

def setOperands (m : Machine) (operands : List Cell) : Machine :=
  { m with active := { m.active with operands } }

/-- The operand below `i` others. A validated program never reads past the last. -/
def operand (m : Machine) (i : Nat) : Cell := m.active.operands.getD i 0

def discard (m : Machine) (count : Nat) : Machine :=
  m.setOperands (m.active.operands.drop count)

def replace (m : Machine) (count : Nat) (v : Cell) : Machine :=
  m.setOperands (v :: m.active.operands.drop count)

/-- Takes `count` operands off and changes the memory, which has to reach as far as `stop`. -/
@[inline]
def rewrite (m : Machine) (stop count : Nat) (change : ByteArray → ByteArray) : Step :=
  if stop ≤ m.state.memory.size then
    match m.discard count with
    | ⟨⟨⟨bytes, limit⟩, globals, meter⟩, active, callers, depth, patience⟩ =>
      .next ⟨⟨⟨change bytes, limit⟩, globals, meter⟩, active, callers, depth, patience⟩
  else trap m .memoryOutOfBounds

def load (m : Machine) (width : Width) (access : Access) (extension : Extension) : Step :=
  match m.state.memory.load? ((m.operand 0).toNat + access.offset) access.bytes with
  | none => trap m .memoryOutOfBounds
  | some v =>
    match extension with
    | .zero => .next (m.replace 1 v)
    | .sign => .next (m.replace 1 ((v.signExtend access.bytes).narrow width))

def store (m : Machine) (access : Access) : Step :=
  let v := m.operand 0
  let start := (m.operand 1).toNat + access.offset
  m.rewrite (start + access.bytes) 2 fun bytes => Memory.scatter bytes start v access.bytes

def copy (m : Machine) : Step :=
  let len := (m.operand 0).toNat
  let start := (m.operand 1).toNat
  let target := (m.operand 2).toNat
  m.rewrite (max start target + len) 3 fun bytes => Memory.move bytes target start len

def fill (m : Machine) : Step :=
  let len := (m.operand 0).toNat
  let x := (m.operand 1).toUInt8
  let start := (m.operand 2).toNat
  m.rewrite (start + len) 3 fun bytes => Memory.fill bytes start x len

def grow (m : Machine) : Step :=
  match m.state.memory.grow? (m.operand 0).toNat with
  | none => .next (m.replace 1 0xffffffff)
  | some (before, memory) =>
    let m := m.replace 1 (.ofNat before)
    .next { m with state := { m.state with memory } }

def setLocal (m : Machine) (i : Nat) (v : Cell) : Machine :=
  match m with
  | ⟨state, ⟨arity, locals, operands, rest, labels⟩, callers, depth, patience⟩ =>
    ⟨state, ⟨arity, locals.setIfInBounds i v, operands, rest, labels⟩, callers, depth, patience⟩

def setGlobal (m : Machine) (i : Nat) (v : Cell) : Machine :=
  match m with
  | ⟨⟨memory, globals, meter⟩, active, callers, depth, patience⟩ =>
    ⟨⟨memory, globals.setIfInBounds i v, meter⟩, active, callers, depth, patience⟩

def callIndirect (p : Program) (m : Machine) (type : FunctionType) : Step :=
  let slot := m.operand 0
  let m := (m.discard 1).settle
  match p.table[slot.toNat]? with
  | none => trap m .tableOutOfBounds
  | some none => trap m .nullFunction
  | some (some index) =>
    if p.type? index = some type then call p m index else trap m .badSignature

def perform (p : Program) (m : Machine) : Instruction → Step
  | .unreachable => trap m.settle .unreachable
  | .nop => .next m
  | .block type body => .next { m with active := pushBlock m.active type none body }
  | .loop type body => safePoint { m with active := pushBlock m.active type (some body) body }
  | .ifElse type yes no =>
    let body := if m.operand 0 = 0 then no else yes
    let m := m.discard 1
    .next { m.pay with active := pushBlock m.active type none body }
  | .br label => branch m.pay label
  | .brIf label =>
    if m.operand 0 = 0 then .next (m.discard 1).pay else branch (m.discard 1).pay label
  | .brTable labels other =>
    branch (m.discard 1).pay (labels[(m.operand 0).toNat]?.getD other)
  | .ret => leave m
  | .call f => call p m.pay f
  | .callIndirect type => callIndirect p m.pay type
  | .drop => .next (m.discard 1)
  | .select =>
    .next (m.replace 3 (if m.operand 0 = 0 then m.operand 1 else m.operand 2)).pay
  | .localGet i => .next (m.replace 0 (m.active.locals.getD i 0)).pay
  | .localSet i =>
    let v := m.operand 0
    .next ((m.discard 1).setLocal i v).pay
  | .localTee i =>
    let v := m.operand 0
    .next (m.setLocal i v).pay
  | .globalGet i => .next (m.replace 0 (m.state.globals.getD i 0)).pay
  | .globalSet i =>
    let v := m.operand 0
    .next ((m.discard 1).setGlobal i v).pay
  | .load width access extension => load m.pay width access extension
  | .store _ access => store m.pay access
  | .memorySize => .next (m.replace 0 (.ofNat m.state.memory.pages)).pay
  | .memoryGrow => grow m.pay
  | .memoryCopy => copy m.pay
  | .memoryFill => fill m.pay
  | .const _ v => .next (m.replace 0 v).pay
  | .unary width op => .next (m.replace 1 (op.apply width (m.operand 0))).pay
  | .binary width op =>
    match op.apply width (m.operand 1) (m.operand 0) with
    | .ok v => .next (m.replace 2 v).pay
    | .error t => trap m t
  | .wrap => .next (m.replace 1 (.of32 (m.operand 0).toUInt32)).pay
  | .extend .zero => .next m.pay
  | .extend .sign => .next (m.replace 1 ((m.operand 0).signExtend 4)).pay

def step (p : Program) (m : Machine) : Step :=
  match m.active.rest with
  | i :: rest => perform p { m with active := { m.active with rest } } i
  | [] =>
    match m.active.labels with
    | label :: labels => .next { m with active := popBlock m.active label labels }
    | [] => leave m

def run (p : Program) : Nat → Machine → Machine × Pause
  | 0, m => (m, .trapped .interrupted)
  | steps + 1, m =>
    match m.step p with
    | .next m => run p steps m
    | .pause m why => (m, why)

end Machine

end MeteredContracts.Wasm
