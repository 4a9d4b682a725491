import MeteredContracts.Text.Utf8
import MeteredContracts.Wasm.Module

/-!
The binary format of guest programs, read in two stages: the sections, with the bodies of functions
left as bytes, and then the bodies. Programs compute with integers, and may have several results,
extend signs, and copy and fill memory. Floating-point numbers are only passed on. Vectors,
references, passive segments, and more than one memory or table are refused.
-/

namespace MeteredContracts.Wasm.Binary

abbrev Reader := StateT Bytes Option

def fail {α : Type} : Reader α := fun _ => none

def require (b : Bool) : Reader Unit := if b then pure () else fail

def byte : Reader UInt8
  | [] => none
  | b :: bs => some (b, bs)

def take (count : Nat) : Reader Bytes := fun bs =>
  if count ≤ bs.length then some (bs.splitAt count) else none

def atEnd : Reader Bool := fun bs => some (bs.isEmpty, bs)

def exactly {α : Type} (r : Reader α) (bs : Bytes) : Option α :=
  match r bs with
  | some (a, []) => some a
  | _ => none

def many {α : Type} (r : Reader α) : Nat → Reader (List α)
  | 0 => pure []
  | n + 1 => do
    let a ← r
    let as ← many r n
    pure (a :: as)

def unsigned (bits : Nat) : Reader Nat := go bits bits
where
  go : Nat → Nat → Reader Nat
    | 0, _ => fail
    | fuel + 1, bits => do
      let b ← byte
      let low := b.toNat % 128
      require (bits ≥ 7 || low < 1 <<< bits)
      if b < 0x80 then pure low
      else do
        require (bits > 7)
        let high ← go fuel (bits - 7)
        pure (low + 128 * high)

def signed (bits : Nat) : Reader Int := go bits bits
where
  go : Nat → Nat → Reader Int
    | 0, _ => fail
    | fuel + 1, bits => do
      let b ← byte
      let low := b.toNat % 128
      if b < 0x80 then do
        let value : Int := if low < 64 then low else low - 128
        let bound : Int := (1 <<< (bits - 1) : Nat)
        require (bits ≥ 7 || (-bound ≤ value && value < bound))
        pure value
      else do
        require (bits > 7)
        let high ← go fuel (bits - 7)
        pure (low + 128 * high)

def count : Reader Nat := unsigned 32

def vector {α : Type} (r : Reader α) : Reader (List α) := do many r (← count)

def name : Reader String := do
  match Utf8.decode (← take (← count)) with
  | .ok s => pure s
  | .error _ => fail

def valueType : Reader ValueType := do
  match ← byte with
  | 0x7f => pure .i32
  | 0x7e => pure .i64
  | 0x7d => pure .f32
  | 0x7c => pure .f64
  | _ => fail

def functionType : Reader FunctionType := do
  require ((← byte) == 0x60)
  let params ← vector valueType
  let results ← vector valueType
  require (params.length ≤ 1000 && results.length ≤ 1000)
  pure ⟨params, results⟩

def limits (bound : Nat) : Reader Limits := do
  match ← byte with
  | 0 => do
    let min ← count
    require (min ≤ bound)
    pure ⟨min, none⟩
  | 1 => do
    let min ← count
    let max ← count
    require (min ≤ max && min ≤ bound)
    pure ⟨min, some max⟩
  | _ => fail

def maxPages : Nat := 65536

def memoryType : Reader Limits := do
  let l ← limits maxPages
  require (l.max.getD 0 ≤ maxPages)
  pure l

def tableType : Reader Limits := do
  require ((← byte) == 0x70)
  limits 10000000

def globalType : Reader GlobalType := do
  let value ← valueType
  match ← byte with
  | 0 => pure ⟨value, false⟩
  | 1 => pure ⟨value, true⟩
  | _ => fail

def cellOfInt (n : Int) : Cell := UInt64.ofInt n

def const (opcode : UInt8) : Reader (ValueType × Cell) := do
  match opcode with
  | 0x41 => do pure (.i32, .of32 (cellOfInt (← signed 32)).toUInt32)
  | 0x42 => do pure (.i64, cellOfInt (← signed 64))
  | 0x43 => do pure (.f32, .ofNat (Bytes.toNatLE (← take 4)))
  | 0x44 => do pure (.f64, .ofNat (Bytes.toNatLE (← take 8)))
  | _ => fail

def constExpr : Reader ConstExpr := do
  let e ← match ← byte with
    | 0x23 => do pure (.global (← count))
    | opcode => do
      let (type, value) ← const opcode
      pure (.const type value)
  require ((← byte) == 0x0b)
  pure e

structure Sections where
  types : List FunctionType := []
  imports : List Import := []
  functions : List FunctionType := []
  tables : List Limits := []
  memories : List Limits := []
  globals : List Global := []
  exports : List Export := []
  start : Option Nat := none
  elements : List ElementSegment := []
  bodies : List Bytes := []
  data : List DataSegment := []

def typeIndex (types : List FunctionType) : Reader FunctionType := do
  match types[← count]? with
  | some type => pure type
  | none => fail

def importEntry (types : List FunctionType) : Reader Import := do
  let module ← name
  let field ← name
  match ← byte with
  | 0 => do pure ⟨module, field, .function (← typeIndex types)⟩
  | 1 => do pure ⟨module, field, .table (← tableType)⟩
  | 2 => do pure ⟨module, field, .memory (← memoryType)⟩
  | 3 => do pure ⟨module, field, .global (← globalType)⟩
  | _ => fail

def exportEntry : Reader Export := do
  let field ← name
  match ← byte with
  | 0 => do pure ⟨field, .function, ← count⟩
  | 1 => do pure ⟨field, .table, ← count⟩
  | 2 => do pure ⟨field, .memory, ← count⟩
  | 3 => do pure ⟨field, .global, ← count⟩
  | _ => fail

def elementSegment : Reader ElementSegment := do
  require ((← count) == 0)
  pure ⟨← constExpr, ← vector count⟩

def dataSegment : Reader DataSegment := do
  require ((← count) == 0)
  let offset ← constExpr
  pure ⟨offset, ← take (← count)⟩

def contents (s : Sections) (id : UInt8) : Reader Sections := do
  match id with
  | 1 => do pure { s with types := ← vector functionType }
  | 2 => do pure { s with imports := ← vector (importEntry s.types) }
  | 3 => do pure { s with functions := ← vector (typeIndex s.types) }
  | 4 => do pure { s with tables := ← vector tableType }
  | 5 => do pure { s with memories := ← vector memoryType }
  | 6 => do pure { s with globals := ← vector do pure ⟨← globalType, ← constExpr⟩ }
  | 7 => do pure { s with exports := ← vector exportEntry }
  | 8 => do pure { s with start := some (← count) }
  | 9 => do pure { s with elements := ← vector elementSegment }
  | 10 => do pure { s with bodies := ← vector do take (← count) }
  | 11 => do pure { s with data := ← vector dataSegment }
  | _ => fail

def sectionsFrom : Nat → UInt8 → Sections → Reader Sections
  | 0, _, s => pure s
  | fuel + 1, last, s => do
    if ← atEnd then pure s
    else do
      let id ← byte
      let content ← take (← count)
      if id = 0 then
        match name content with
        | some _ => sectionsFrom fuel last s
        | none => fail
      else do
        require (last < id)
        match exactly (contents s id) content with
        | some s => sectionsFrom fuel id s
        | none => fail

def magic : Bytes := [0x00, 0x61, 0x73, 0x6d]

def sections (bs : Bytes) : Option Sections :=
  exactly (do
    require ((← take 4) == magic)
    require ((← take 4) == [1, 0, 0, 0])
    sectionsFrom bs.length 0 {}) bs

def blockType (types : List FunctionType) : Reader FunctionType := fun bs =>
  match bs with
  | 0x40 :: rest => some (⟨[], []⟩, rest)
  | _ =>
    match valueType bs with
    | some (t, rest) => some (⟨[], [t]⟩, rest)
    | none =>
      match signed 33 bs with
      | some (n, rest) => if n < 0 then none else types[n.toNat]?.map (·, rest)
      | none => none

def access (bytes : Nat) : Reader Access := do
  let align ← count
  require (align ≤ 3 && 1 <<< align ≤ bytes)
  pure ⟨bytes, ← count⟩

def comparisons : List Binary := [.eq, .ne, .ltS, .ltU, .gtS, .gtU, .leS, .leU, .geS, .geU]

def arithmetic : List Binary :=
  [.add, .sub, .mul, .divS, .divU, .remS, .remU, .and, .or, .xor, .shl, .shrS, .shrU, .rotl, .rotr]

def binaryAt (width : Width) (ops : List Binary) (index : Nat) : Reader Instruction :=
  match ops[index]? with
  | some op => pure (.binary width op)
  | none => fail

def plain (types : List FunctionType) (opcode : UInt8) : Reader Instruction := do
  match opcode with
  | 0x00 => pure .unreachable
  | 0x01 => pure .nop
  | 0x0c => do pure (.br (← count))
  | 0x0d => do pure (.brIf (← count))
  | 0x0e => do pure (.brTable (← vector count) (← count))
  | 0x0f => pure .ret
  | 0x10 => do pure (.call (← count))
  | 0x11 => do
    let type ← typeIndex types
    require ((← count) == 0)
    pure (.callIndirect type)
  | 0x1a => pure .drop
  | 0x1b => pure .select
  | 0x20 => do pure (.localGet (← count))
  | 0x21 => do pure (.localSet (← count))
  | 0x22 => do pure (.localTee (← count))
  | 0x23 => do pure (.globalGet (← count))
  | 0x24 => do pure (.globalSet (← count))
  | 0x28 => do pure (.load .w32 (← access 4) .zero)
  | 0x29 => do pure (.load .w64 (← access 8) .zero)
  | 0x2c => do pure (.load .w32 (← access 1) .sign)
  | 0x2d => do pure (.load .w32 (← access 1) .zero)
  | 0x2e => do pure (.load .w32 (← access 2) .sign)
  | 0x2f => do pure (.load .w32 (← access 2) .zero)
  | 0x30 => do pure (.load .w64 (← access 1) .sign)
  | 0x31 => do pure (.load .w64 (← access 1) .zero)
  | 0x32 => do pure (.load .w64 (← access 2) .sign)
  | 0x33 => do pure (.load .w64 (← access 2) .zero)
  | 0x34 => do pure (.load .w64 (← access 4) .sign)
  | 0x35 => do pure (.load .w64 (← access 4) .zero)
  | 0x36 => do pure (.store .w32 (← access 4))
  | 0x37 => do pure (.store .w64 (← access 8))
  | 0x3a => do pure (.store .w32 (← access 1))
  | 0x3b => do pure (.store .w32 (← access 2))
  | 0x3c => do pure (.store .w64 (← access 1))
  | 0x3d => do pure (.store .w64 (← access 2))
  | 0x3e => do pure (.store .w64 (← access 4))
  | 0x3f => do
    require ((← count) == 0)
    pure .memorySize
  | 0x40 => do
    require ((← count) == 0)
    pure .memoryGrow
  | 0x45 => pure (.unary .w32 .eqz)
  | 0x50 => pure (.unary .w64 .eqz)
  | 0x67 => pure (.unary .w32 .clz)
  | 0x68 => pure (.unary .w32 .ctz)
  | 0x69 => pure (.unary .w32 .popcnt)
  | 0x79 => pure (.unary .w64 .clz)
  | 0x7a => pure (.unary .w64 .ctz)
  | 0x7b => pure (.unary .w64 .popcnt)
  | 0xa7 => pure .wrap
  | 0xac => pure (.extend .sign)
  | 0xad => pure (.extend .zero)
  | 0xc0 => pure (.unary .w32 (.signExtend 1))
  | 0xc1 => pure (.unary .w32 (.signExtend 2))
  | 0xc2 => pure (.unary .w64 (.signExtend 1))
  | 0xc3 => pure (.unary .w64 (.signExtend 2))
  | 0xc4 => pure (.unary .w64 (.signExtend 4))
  | 0xfc => do
    match ← count with
    | 10 => do
      require ((← count) == 0 && (← count) == 0)
      pure .memoryCopy
    | 11 => do
      require ((← count) == 0)
      pure .memoryFill
    | _ => fail
  | _ =>
    let n := opcode.toNat
    if 0x41 ≤ n && n ≤ 0x44 then do
      let (type, value) ← const opcode
      pure (.const type value)
    else if 0x46 ≤ n && n ≤ 0x4f then binaryAt .w32 comparisons (n - 0x46)
    else if 0x51 ≤ n && n ≤ 0x5a then binaryAt .w64 comparisons (n - 0x51)
    else if 0x6a ≤ n && n ≤ 0x78 then binaryAt .w32 arithmetic (n - 0x6a)
    else if 0x7c ≤ n && n ≤ 0x8a then binaryAt .w64 arithmetic (n - 0x7c)
    else fail

inductive Terminator
  | alternative
  | close
  deriving DecidableEq

/-- Instructions up to an `else` or an `end`, which is consumed. Each takes at least one byte, so
the length of the input is fuel enough. -/
def instructions (types : List FunctionType) :
    Nat → Reader (List Instruction × Terminator)
  | 0 => fail
  | fuel + 1 => do
    match ← byte with
    | 0x0b => pure ([], .close)
    | 0x05 => pure ([], .alternative)
    | opcode => do
      let i ← match opcode with
        | 0x02 => do
          let type ← blockType types
          let (body, stop) ← instructions types fuel
          require (stop == .close)
          pure (.block type body)
        | 0x03 => do
          let type ← blockType types
          let (body, stop) ← instructions types fuel
          require (stop == .close)
          pure (.loop type body)
        | 0x04 => do
          let type ← blockType types
          let (yes, stop) ← instructions types fuel
          if stop == .close then pure (.ifElse type yes [])
          else do
            let (no, stop) ← instructions types fuel
            require (stop == .close)
            pure (.ifElse type yes no)
        | _ => plain types opcode
      let (rest, stop) ← instructions types fuel
      pure (i :: rest, stop)

def maxLocals : Nat := 50000

def locals : Nat → Nat → Reader (List ValueType)
  | 0, _ => pure []
  | runs + 1, room => do
    let n ← count
    require (n ≤ room)
    let type ← valueType
    let rest ← locals runs (room - n)
    pure (List.replicate n type ++ rest)

def body (types : List FunctionType) (type : FunctionType) (bs : Bytes) : Option Function :=
  exactly (do
    let locals ← locals (← count) (maxLocals - type.params.length)
    let (body, stop) ← instructions types bs.length
    require (stop == .close)
    pure ⟨type, locals, body⟩) bs

end MeteredContracts.Wasm.Binary
