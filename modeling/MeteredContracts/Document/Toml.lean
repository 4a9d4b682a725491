import MeteredContracts.Document.Toml.Tree

namespace MeteredContracts.Document.Toml

open Reader

def maxNesting : Nat := 80

def isBlank (c : Char) : Bool := c = ' ' || c = '\t'

def blanks : Reader Unit := skipWhile isBlank

def isPlain (c : Char) : Bool := c = '\t' || (0x20 ≤ c.toNat && c.toNat ≠ 0x7f)

def newline : Reader Bool := do
  if ← optional "\n" then pure true else optional "\r\n"

def comment : Reader Unit := do
  if ← optional "#" then skipWhile isPlain else pure ()

def lineEnd : Reader Unit := do
  blanks
  comment
  unless ← newline do require ((← peek).isNone)

def gap : Nat → Reader Unit
  | 0 => pure ()
  | fuel + 1 => do
    blanks
    match ← peek with
    | some '#' =>
      comment
      require (← newline)
      gap fuel
    | some '\n' | some '\r' =>
      require (← newline)
      gap fuel
    | _ => pure ()

def unicode (count : Nat) : Reader Char := fun cs =>
  let digits := cs.take count
  if digits.length = count && digits.all isHexDigit then
    (charOf? (natOfDigits 16 digits)).map fun c => (c, cs.drop count)
  else none

def escape : Reader Char := do
  match ← next with
  | 'b' => pure '\x08'
  | 't' => pure '\t'
  | 'n' => pure '\n'
  | 'f' => pure '\x0c'
  | 'r' => pure '\r'
  | '"' => pure '"'
  | '\\' => pure '\\'
  | 'u' => unicode 4
  | 'U' => unicode 8
  | _ => fail

def basicRest : Nat → Reader (List Char)
  | 0 => fail
  | fuel + 1 => do
    match ← next with
    | '"' => pure []
    | '\\' => do
      let c ← escape
      pure (c :: (← basicRest fuel))
    | c => do
      require (isPlain c)
      pure (c :: (← basicRest fuel))

def basicString : Reader String := do
  expect "\""
  pure (.ofList (← basicRest (← length)))

def literalString : Reader String := do
  expect "'"
  let cs ← takeWhile fun c => isPlain c && c ≠ '\''
  expect "'"
  pure (.ofList cs)

/-- A run of quotes in a string of several lines: fewer than three belong to the text, and of three
to five the last three end it. -/
def quoteRun (quote : Char) (more : Reader (List Char)) : Reader (List Char) := do
  let quotes ← takeWhile (· = quote)
  if quotes.length < 3 then pure (quotes ++ (← more))
  else do
    require (quotes.length ≤ 5)
    pure (quotes.drop 3)

def linesRest (quote : Char) (escapes : Bool) : Nat → Reader (List Char)
  | 0 => fail
  | fuel + 1 => do
    match ← peek with
    | none => fail
    | some '\n' | some '\r' => do
      require (← newline)
      pure ('\n' :: (← linesRest quote escapes fuel))
    | some c =>
      if c = quote then quoteRun quote (linesRest quote escapes fuel)
      else if escapes ∧ c = '\\' then do
        discard next
        let after ← peek
        if after.any (fun c => isBlank c || c = '\n' || c = '\r') then
          blanks
          require (← newline)
          skipBreaks fuel
          linesRest quote escapes fuel
        else
          let c ← escape
          pure (c :: (← linesRest quote escapes fuel))
      else do
        discard next
        require (isPlain c)
        pure (c :: (← linesRest quote escapes fuel))
where
  skipBreaks : Nat → Reader Unit
    | 0 => pure ()
    | fuel + 1 => do
      blanks
      if ← newline then skipBreaks fuel

def linesString (quote : Char) (escapes : Bool) : Reader String := do
  discard newline
  pure (.ofList (← linesRest quote escapes (← length)))

def isBare (c : Char) : Bool :=
  isDigit c || ('a' ≤ c && c ≤ 'z') || ('A' ≤ c && c ≤ 'Z') || c = '_' || c = '-'

def keyPart : Reader String := do
  blanks
  let part ← match ← peek with
    | some '"' => basicString
    | some '\'' => literalString
    | _ => do
      let cs ← takeWhile isBare
      require !cs.isEmpty
      pure (.ofList cs)
  blanks
  pure part

def key (fuel : Nat) : Reader (List String × String) := do
  let (path, last) ← go fuel
  require (path.length + 1 < maxNesting)
  pure (path, last)
where
  go : Nat → Reader (List String × String)
    | 0 => fail
    | fuel + 1 => do
      let part ← keyPart
      if ← optional "." then
        let (path, last) ← go fuel
        pure (part :: path, last)
      else pure ([], part)

def spaced (digit : Char → Bool) : List Char → Option (List Char)
  | [] => none
  | [c] => if digit c then some [c] else none
  | c :: '_' :: rest => if digit c then (spaced digit rest).map (c :: ·) else none
  | c :: rest => if digit c then (spaced digit rest).map (c :: ·) else none

def unsigned (cs : List Char) : Bool × List Char :=
  match cs with
  | '-' :: cs => (true, cs)
  | '+' :: cs => (false, cs)
  | cs => (false, cs)

def whole? (cs : List Char) : Option (List Char) := do
  let cs ← spaced isDigit cs
  if cs.length = 1 ∨ cs.head? ≠ some '0' then some cs else none

def integer? (cs : List Char) : Option Document := do
  let n : Int ← match cs with
    | '0' :: 'x' :: cs => (spaced isHexDigit cs).map fun cs => natOfDigits 16 cs
    | '0' :: 'o' :: cs => (spaced (fun c => '0' ≤ c && c ≤ '7') cs).map fun cs => natOfDigits 8 cs
    | '0' :: 'b' :: cs => (spaced (fun c => c = '0' || c = '1') cs).map fun cs => natOfDigits 2 cs
    | cs => do
      let (negative, cs) := unsigned cs
      let n : Int := natOfDigits 10 (← whole? cs)
      some (if negative then -n else n)
  if Int64.minValue.toInt ≤ n ∧ n ≤ Int64.maxValue.toInt then some (.int n) else none

/-- A number too large for a float is refused if it is positive. -/
def float? (cs : List Char) : Option Document := do
  let (negative, cs) := unsigned cs
  if cs = "inf".toList ∨ cs = "nan".toList then some .unreadable
  else
    let isMark (c : Char) : Bool := c = 'e' || c = 'E'
    let front := cs.takeWhile fun c => !isMark c
    let back := cs.drop front.length
    let digits := front.takeWhile (· ≠ '.')
    let point := front.drop digits.length
    let exponent : Int ← match back with
      | [] => some 0
      | _ :: cs => do
        let (below, cs) := unsigned cs
        let n : Int := natOfDigits 10 (← spaced isDigit cs)
        some (if below then -n else n)
    let fraction ← match point with
      | [] => some []
      | _ :: cs => spaced isDigit cs
    if point.isEmpty ∧ back.isEmpty then none
    else match floatOfParts negative (← whole? digits) fraction exponent with
      | some x => some (.float x)
      | none => if negative then some .unreadable else none

def number? (width : Nat) (cs : List Char) : Option Nat :=
  if cs.length = width && cs.all isDigit then some (natOfDigits 10 cs) else none

def daysIn (year month : Nat) : Nat :=
  if month = 2 then
    if year % 4 = 0 ∧ (year % 100 ≠ 0 ∨ year % 400 = 0) then 29 else 28
  else if [4, 6, 9, 11].contains month then 30 else 31

def isDate (cs : List Char) : Bool :=
  match number? 4 (cs.take 4), number? 2 ((cs.drop 5).take 2), number? 2 (cs.drop 8) with
  | some year, some month, some day =>
    cs[4]? == some '-' && cs[7]? == some '-' && 1 ≤ month && month ≤ 12 && 1 ≤ day &&
      day ≤ daysIn year month
  | _, _, _ => false

def isTime (cs : List Char) : Bool :=
  match number? 2 (cs.take 2), number? 2 ((cs.drop 3).take 2), number? 2 ((cs.drop 6).take 2) with
  | some hour, some minute, some second =>
    let fraction := cs.drop 8
    cs[2]? == some ':' && cs[5]? == some ':' && hour ≤ 23 && minute ≤ 59 && second ≤ 60 &&
      (fraction.isEmpty ||
        (fraction.head? == some '.' && 2 ≤ fraction.length && (fraction.drop 1).all isDigit))
  | _, _, _ => false

def isOffset (cs : List Char) : Bool :=
  cs = ['Z'] || cs = ['z'] ||
    match number? 2 ((cs.drop 1).take 2), number? 2 (cs.drop 4) with
    | some hour, some minute =>
      (cs.head? == some '+' || cs.head? == some '-') && cs[3]? == some ':' && hour ≤ 23 &&
        minute ≤ 59
    | _, _ => false

def isOffsetTime (cs : List Char) : Bool :=
  let time := cs.takeWhile fun c => isDigit c || c = ':' || c = '.'
  let offset := cs.drop time.length
  isTime time && (offset.isEmpty || isOffset offset)

def isMoment (cs : List Char) : Bool :=
  isDate cs || isTime cs ||
    (isDate (cs.take 10) && (cs[10]? == some 'T' || cs[10]? == some 't') &&
      isOffsetTime (cs.drop 11))

def moment : Document := .table [("moment", .text "")]

def isScalar (c : Char) : Bool := isBare c || c = '+' || c = '.' || c = ':'

def scalar : Reader Document := do
  let cs ← takeWhile isScalar
  if cs = "true".toList then pure (.bool true)
  else if cs = "false".toList then pure (.bool false)
  else if isDate cs then do
    let rest ← get
    if rest.head? = some ' ' ∧ (rest[1]?).any isDigit then
      discard next
      require (isOffsetTime (← takeWhile isScalar))
    pure moment
  else if isMoment cs then pure moment
  else match integer? cs, float? cs with
    | some d, _ => pure d
    | none, some d => pure d
    | none, none => fail

mutual

def value : Nat → Nat → Reader Document
  | 0, _ => fail
  | fuel + 1, depth => do
    match ← peek with
    | some '"' =>
      if ← optional "\"\"\"" then .text <$> linesString '"' true
      else .text <$> basicString
    | some '\'' =>
      if ← optional "'''" then .text <$> linesString '\'' false
      else .text <$> literalString
    | some '[' => do
      discard next
      require (1 < depth)
      .list <$> items fuel (depth - 1)
    | some '{' => do
      discard next
      require (1 < depth)
      blanks
      if ← optional "\x7d" then pure (.table [])
      else (fun fields => .table (Fields.toDocuments fields)) <$> pairs fuel (depth - 1) []
    | _ => scalar

def items : Nat → Nat → Reader (List Document)
  | 0, _ => fail
  | fuel + 1, depth => do
    gap (← length)
    if ← optional "]" then pure []
    else
      let d ← value fuel depth
      gap (← length)
      match ← next with
      | ',' => do pure (d :: (← items fuel depth))
      | ']' => pure [d]
      | _ => fail

def pairs : Nat → Nat → Fields → Reader Fields
  | 0, _, _ => fail
  | fuel + 1, depth, fields => do
    let (path, last) ← key (← length)
    expect "="
    blanks
    let d ← value fuel depth
    blanks
    match fields.put path last d with
    | none => fail
    | some fields =>
      match ← next with
      | ',' => pairs fuel depth fields
      | '}' => pure fields
      | _ => fail

end

def lines : Nat → List String → Fields → Reader Fields
  | 0, _, _ => fail
  | fuel + 1, header, fields => do
    blanks
    match ← peek with
    | none => pure fields
    | some '#' =>
      lineEnd
      lines fuel header fields
    | some '\n' | some '\r' =>
      require (← newline)
      lines fuel header fields
    | some '[' => do
      let many ← optional "[["
      unless many do expect "["
      let (path, last) ← key (← length)
      expect (if many then "]]" else "]")
      lineEnd
      match if many then fields.openItem path last else fields.openTable path last with
      | none => fail
      | some fields => lines fuel (path ++ [last]) fields
    | _ => do
      let (path, last) ← key (← length)
      expect "="
      blanks
      let d ← value (2 * (← length) + 2) maxNesting
      lineEnd
      match fields.putUnder header path last d with
      | none => fail
      | some fields => lines fuel header fields

def read (text : String) : Option Document := do
  let fields ← Reader.run (do
    discard (optional "\ufeff")
    lines (text.length + 1) [] []) text
  some (.table (Fields.toDocuments fields))

end MeteredContracts.Document.Toml
