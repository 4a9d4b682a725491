namespace MeteredContracts

inductive Document
  | null
  | bool (b : Bool)
  | int (n : Int)
  | float (x : Float)
  /-- What no record takes: a number beyond every float, a text with half a surrogate pair in it, or
  a table with such a key. -/
  | unreadable
  | text (s : String)
  | list (items : List Document)
  | table (fields : List (String × Document))
  deriving Inhabited

namespace Document

abbrev Reader := StateT (List Char) Option

namespace Reader

def fail {α : Type} : Reader α := fun _ => none

def require (b : Bool) : Reader Unit := if b then pure () else fail

def peek : Reader (Option Char) := fun cs => some (cs.head?, cs)

def next : Reader Char
  | [] => none
  | c :: cs => some (c, cs)

def expect (s : String) : Reader Unit := fun cs =>
  if s.toList.isPrefixOf cs then some ((), cs.drop s.length) else none

def optional (s : String) : Reader Bool := fun cs =>
  if s.toList.isPrefixOf cs then some (true, cs.drop s.length) else some (false, cs)

def skipWhile (p : Char → Bool) : Reader Unit := fun cs => some ((), cs.dropWhile p)

def takeWhile (p : Char → Bool) : Reader (List Char) := fun cs =>
  some (cs.takeWhile p, cs.dropWhile p)

def length : Reader Nat := fun cs => some (cs.length, cs)

def run {α : Type} (r : Reader α) (text : String) : Option α :=
  match r text.toList with
  | some (a, []) => some a
  | _ => none

end Reader

def isDigit (c : Char) : Bool := '0' ≤ c && c ≤ '9'

def digitValue (c : Char) : Nat :=
  if isDigit c then c.toNat - 48
  else if 'a' ≤ c && c ≤ 'f' then c.toNat - 87
  else if 'A' ≤ c && c ≤ 'F' then c.toNat - 55
  else 0

def isHexDigit (c : Char) : Bool :=
  isDigit c || ('a' ≤ c && c ≤ 'f') || ('A' ≤ c && c ≤ 'F')

def natOfDigits (base : Nat) (cs : List Char) : Nat :=
  cs.foldl (fun n c => base * n + digitValue c) 0

def floatOf (negative : Bool) (mantissa : Nat) (exponent : Int) : Option Float :=
  let size := exponent + (toString mantissa).length
  let x : Option Float :=
    if mantissa = 0 ∨ size < -400 then some 0
    else if 400 < size then none
    else
      let x := Float.ofScientific mantissa (exponent < 0) exponent.natAbs
      if x.isInf then none else some x
  x.map fun x => if negative then -x else x

def floatOfParts (negative : Bool) (whole fraction : List Char) (exponent : Int) : Option Float :=
  floatOf negative (natOfDigits 10 (whole ++ fraction)) (exponent - fraction.length)

def charOf? (n : Nat) : Option Char := if n.isValidChar then some (Char.ofNat n) else none

end Document

end MeteredContracts
