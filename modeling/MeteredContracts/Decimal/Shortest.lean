namespace MeteredContracts.Decimal

structure Binary where
  mantissa : Nat
  exponent : Int
  lopsided : Bool

def fractions : Nat := 1 <<< 52

def Binary.ofBits (bits : Nat) : Binary :=
  let fraction : Nat := bits % fractions
  let biased : Nat := bits / fractions % 2048
  if biased = 0 then ⟨fraction, -1074, false⟩
  else ⟨fractions + fraction, (biased : Int) - 1075, fraction = 0 ∧ 1 < biased⟩

structure Scientific where
  digits : Nat
  exponent : Int
  deriving DecidableEq, Repr

def power (base : Nat) (e : Int) : Nat := if 0 ≤ e then Nat.pow base e.toNat else 1

/-- Whether `a * 10 ^ e` equals or exceeds `m * 2 ^ q`, by cross-multiplication. -/
def le (m : Nat) (q : Int) (a : Nat) (e : Int) : Bool :=
  m * power 2 q * power 10 (-e) ≤ a * power 10 e * power 2 (-q)

def ge (m : Nat) (q : Int) (a : Nat) (e : Int) : Bool :=
  a * power 10 e * power 2 (-q) ≤ m * power 2 q * power 10 (-e)

/-- Whether a decimal lies where it rounds to `b`; the ends round to an even mantissa. -/
def Binary.admits (b : Binary) (s : Scientific) : Bool :=
  let low := 4 * b.mantissa - (if b.lopsided then 1 else 2)
  let high := 4 * b.mantissa + 2
  let q := b.exponent - 2
  if b.mantissa % 2 = 0 then le low q s.digits s.exponent && ge high q s.digits s.exponent
  else !ge low q s.digits s.exponent && !le high q s.digits s.exponent

def Binary.floor (b : Binary) (e : Int) : Nat :=
  b.mantissa * power 2 b.exponent * power 10 (-e) / (power 10 e * power 2 (-b.exponent))

def Binary.onGrid (b : Binary) (e : Int) : Option Scientific :=
  let k := b.floor e
  let below : Scientific := ⟨k, e⟩
  let above : Scientific := ⟨k + 1, e⟩
  match b.admits below && 0 < k, b.admits above with
  | true, false => some below
  | false, true => some above
  | true, true =>
    if le (2 * b.mantissa) b.exponent (2 * k + 1) e then some below else some above
  | false, false => none

def Binary.search (b : Binary) : Nat → Int → Scientific
  | 0, e => ⟨b.floor e, e⟩
  | tries + 1, e => (b.onGrid e).getD (search b tries (e - 1))

def Binary.leading (b : Binary) : Nat → Int → Int
  | 0, e => e
  | tries + 1, e => if 0 < b.floor e then e else leading b tries (e - 1)

def Binary.shortest (b : Binary) : Scientific :=
  if b.mantissa = 0 then ⟨0, 0⟩ else b.search 17 (b.leading 700 309)

def Scientific.positional (s : Scientific) : String :=
  let digits := toString s.digits
  if 0 ≤ s.exponent then digits ++ .ofList (List.replicate s.exponent.toNat '0') ++ ".0"
  else
    let places := (-s.exponent).toNat
    let cs := List.replicate (places + 1 - digits.length) '0' ++ digits.toList
    .ofList (cs.take (cs.length - places) ++ '.' :: cs.drop (cs.length - places))

def text (x : Float) : String :=
  let bits := x.toBits.toNat
  (if 1 <<< 63 ≤ bits then "-" else "") ++ (Binary.ofBits bits).shortest.positional

end MeteredContracts.Decimal
