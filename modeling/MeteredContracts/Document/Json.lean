import MeteredContracts.Document.Basic

/-!
Reading JSON. An integer of 64 bits is kept exactly, signed or not; any other number is a float, and
so is `-0`.
-/

namespace MeteredContracts.Document.Json

open Reader

def isBlank (c : Char) : Bool := c = ' ' || c = '\t' || c = '\n' || c = '\r'

def blanks : Reader Unit := skipWhile isBlank

def hexUnit : Reader Nat := do
  let cs := [← next, ← next, ← next, ← next]
  require (cs.all isHexDigit)
  pure (natOfDigits 16 cs)

def unicodeEscape : Reader (Option Char) := do
  let unit ← hexUnit
  if 0xd800 ≤ unit ∧ unit < 0xdc00 then
    if ← optional "\\u" then
      let low ← hexUnit
      if 0xdc00 ≤ low ∧ low < 0xe000 then
        pure (charOf? (0x10000 + (unit - 0xd800) * 0x400 + (low - 0xdc00)))
      else pure none
    else pure none
  else pure (charOf? unit)

def escape : Reader (Option Char) := do
  match ← next with
  | '"' => pure (some '"')
  | '\\' => pure (some '\\')
  | '/' => pure (some '/')
  | 'b' => pure (some '\x08')
  | 'f' => pure (some '\x0c')
  | 'n' => pure (some '\n')
  | 'r' => pure (some '\r')
  | 't' => pure (some '\t')
  | 'u' => unicodeEscape
  | _ => fail

def stringRest : Nat → Reader (Option (List Char))
  | 0 => fail
  | fuel + 1 => do
    match ← next with
    | '"' => pure (some [])
    | '\\' => do
      let c ← escape
      let cs ← stringRest fuel
      pure do some ((← c) :: (← cs))
    | c => do
      require (0x20 ≤ c.toNat)
      let cs ← stringRest fuel
      pure (cs.map (c :: ·))

def string : Reader (Option String) := do
  expect "\""
  pure ((← stringRest (← length)).map String.ofList)

def sign : Reader Int := do
  if ← optional "-" then pure (-1)
  else do
    discard (optional "+")
    pure 1

def digits : Reader (List Char) := do
  let cs ← takeWhile isDigit
  require !cs.isEmpty
  pure cs

def number : Reader Document := do
  let negative ← optional "-"
  let whole ← digits
  require (whole.length = 1 || whole.head? ≠ some '0')
  let point ← optional "."
  let fraction ← if point then digits else pure []
  let mark ← peek
  let exponent ← if mark = some 'e' ∨ mark = some 'E' then some <$> (do
      discard next
      let s ← sign
      pure (s * natOfDigits 10 (← digits)))
    else pure none
  let magnitude : Int := natOfDigits 10 whole
  let n := if negative then -magnitude else magnitude
  let isWhole := !point && exponent.isNone && !(negative && magnitude = 0)
  if isWhole ∧ Int64.minValue.toInt ≤ n ∧ n < UInt64.size then pure (.int n)
  else match floatOfParts negative whole fraction (exponent.getD 0) with
    | some x => pure (.float x)
    | none => pure .unreadable

mutual

def value : Nat → Reader Document
  | 0 => fail
  | fuel + 1 => do
    blanks
    let d ← match ← peek with
      | some '{' => do
        discard next
        blanks
        if ← optional "\x7d" then pure (.table [])
        else
          match ← fields fuel with
          | some fields => pure (.table fields)
          | none => pure .unreadable
      | some '[' => do
        discard next
        blanks
        if ← optional "]" then pure (.list [])
        else .list <$> items fuel
      | some '"' => do
        match ← string with
        | some s => pure (.text s)
        | none => pure .unreadable
      | some 't' => do
        expect "true"
        pure (.bool true)
      | some 'f' => do
        expect "false"
        pure (.bool false)
      | some 'n' => do
        expect "null"
        pure .null
      | _ => number
    blanks
    pure d

def items : Nat → Reader (List Document)
  | 0 => fail
  | fuel + 1 => do
    let d ← value fuel
    match ← next with
    | ',' => do pure (d :: (← items fuel))
    | ']' => pure [d]
    | _ => fail

def fields : Nat → Reader (Option (List (String × Document)))
  | 0 => fail
  | fuel + 1 => do
    blanks
    let key ← string
    blanks
    expect ":"
    let d ← value fuel
    let field : Option (String × Document) := key.map (·, d)
    match ← next with
    | ',' => do
      let rest ← fields fuel
      pure do some ((← field) :: (← rest))
    | '}' => pure (field.map ([·]))
    | _ => fail

end

def read (text : String) : Option Document := run (value (2 * text.length + 2)) text

end MeteredContracts.Document.Json
