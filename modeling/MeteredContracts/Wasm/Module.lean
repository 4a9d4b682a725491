import MeteredContracts.Bytes
import MeteredContracts.Wasm.Numeric

namespace MeteredContracts.Wasm

inductive ValueType
  | i32
  | i64
  | f32
  | f64
  deriving DecidableEq, Repr, Inhabited

structure FunctionType where
  params : List ValueType
  results : List ValueType
  deriving DecidableEq, Repr, Inhabited

structure Access where
  bytes : Nat
  offset : Nat
  deriving DecidableEq, Repr

inductive Extension
  | zero
  | sign
  deriving DecidableEq, Repr

inductive Instruction
  | unreachable
  | nop
  | block (type : FunctionType) (body : List Instruction)
  | loop (type : FunctionType) (body : List Instruction)
  | ifElse (type : FunctionType) (yes no : List Instruction)
  | br (label : Nat)
  | brIf (label : Nat)
  | brTable (labels : List Nat) (other : Nat)
  | ret
  | call (function : Nat)
  | callIndirect (type : FunctionType)
  | drop
  | select
  | localGet (index : Nat)
  | localSet (index : Nat)
  | localTee (index : Nat)
  | globalGet (index : Nat)
  | globalSet (index : Nat)
  | load (width : Width) (access : Access) (extension : Extension)
  | store (width : Width) (access : Access)
  | memorySize
  | memoryGrow
  | memoryCopy
  | memoryFill
  | const (type : ValueType) (value : Cell)
  | unary (width : Width) (op : Unary)
  | binary (width : Width) (op : Binary)
  | wrap
  | extend (extension : Extension)
  deriving Repr, Inhabited

structure Function where
  type : FunctionType
  locals : List ValueType
  body : List Instruction
  deriving Repr, Inhabited

structure Limits where
  min : Nat
  max : Option Nat
  deriving DecidableEq, Repr, Inhabited

structure GlobalType where
  value : ValueType
  mutable : Bool
  deriving DecidableEq, Repr, Inhabited

inductive ConstExpr
  | const (type : ValueType) (value : Cell)
  | global (index : Nat)
  deriving DecidableEq, Repr, Inhabited

structure Global where
  type : GlobalType
  init : ConstExpr
  deriving DecidableEq, Repr, Inhabited

inductive ImportKind
  | function (type : FunctionType)
  | table (limits : Limits)
  | memory (limits : Limits)
  | global (type : GlobalType)
  deriving DecidableEq, Repr, Inhabited

structure Import where
  module : String
  name : String
  kind : ImportKind
  deriving DecidableEq, Repr, Inhabited

inductive ExportKind
  | function
  | table
  | memory
  | global
  deriving DecidableEq, Repr, Inhabited

structure Export where
  name : String
  kind : ExportKind
  index : Nat
  deriving DecidableEq, Repr, Inhabited

structure ElementSegment where
  offset : ConstExpr
  functions : List Nat
  deriving DecidableEq, Repr, Inhabited

structure DataSegment where
  offset : ConstExpr
  bytes : Bytes
  deriving DecidableEq, Repr, Inhabited

structure Module where
  imports : List Import := []
  functions : Array Function := #[]
  table : Option Limits := none
  memory : Option Limits := none
  globals : List Global := []
  exports : List Export := []
  start : Option Nat := none
  elements : List ElementSegment := []
  data : List DataSegment := []
  deriving Repr, Inhabited

namespace Module

def importedFunctions (m : Module) : List FunctionType :=
  m.imports.filterMap fun i => match i.kind with
    | .function type => some type
    | _ => none

def functionType? (m : Module) (index : Nat) : Option FunctionType :=
  let imported := m.importedFunctions
  if index < imported.length then imported[index]?
  else m.functions[index - imported.length]?.map (·.type)

def findExport (m : Module) (name : String) : Option Export := m.exports.find? (·.name == name)

def exportedFunction? (m : Module) (name : String) : Option Nat :=
  match m.findExport name with
  | some ⟨_, .function, index⟩ => some index
  | _ => none

def exportsMemory (m : Module) : Bool :=
  match m.findExport "memory" with
  | some e => e.kind == .memory
  | none => false

end Module

end MeteredContracts.Wasm
