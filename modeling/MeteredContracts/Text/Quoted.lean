import MeteredContracts.Text.Invisible

namespace MeteredContracts.Quoted

def hexDigits (n : Nat) : List Char := Nat.toDigits 16 n

def escape (quote c : Char) : List Char :=
  if c = '\x00' then ['\\', '0']
  else if c = '\t' then ['\\', 't']
  else if c = '\r' then ['\\', 'r']
  else if c = '\n' then ['\\', 'n']
  else if c = '\\' ∨ c = quote then ['\\', c]
  else if isInvisible c then ['\\', 'u', '\x7b'] ++ hexDigits c.toNat ++ ['\x7d']
  else [c]

def char (c : Char) : String := .ofList ('\'' :: escape '\'' c ++ ['\''])

def text (s : String) : String := .ofList ('"' :: s.toList.flatMap (escape '"') ++ ['"'])

end MeteredContracts.Quoted
