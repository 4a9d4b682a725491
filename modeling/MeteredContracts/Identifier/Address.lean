import MeteredContracts.Text.Hex

namespace MeteredContracts

@[ext]
structure Address where
  bytes : Bytes
  length_eq : bytes.length = 33
  deriving DecidableEq

inductive ParseError
  | hex (fault : Hex.Fault)
  | length (actual : Nat)
  deriving DecidableEq, Repr

def ParseError.message (e : ParseError) : String :=
  "Invalid identifier: " ++ match e with
    | .hex fault => fault.message
    | .length n => s!"expected 33 bytes, got {n}"

namespace Address

def zero : Address := ⟨List.replicate 33 0, rfl⟩

instance : Inhabited Address := ⟨zero⟩

def ofBytes? (bs : Bytes) : Option Address :=
  if h : bs.length = 33 then some ⟨bs, h⟩ else none

def ofParts (type : UInt8) (id : Bytes) (h : id.length = 32 := by rfl) : Address :=
  ⟨type :: id, by simp [h]⟩

def typeByte (a : Address) : UInt8 := a.bytes.headD 0

def isZero (a : Address) : Bool := a == zero

def toText (a : Address) : String := Hex.encode a.bytes

instance : ToString Address := ⟨toText⟩

def debugText (a : Address) : String := s!"Address({a})"

instance : Ord Address := ⟨fun a b => compare a.bytes b.bytes⟩

def parse (text : String) : Except ParseError Address :=
  match Hex.decodeMarked text with
  | .error fault => .error (.hex fault)
  | .ok bs =>
    match ofBytes? bs with
    | some a => .ok a
    | none => .error (.length bs.length)

end Address

end MeteredContracts
