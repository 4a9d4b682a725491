import MeteredContracts.Identifier.Address

/-!
The arguments of the command line: `[--config FILE] call --contract ADDRESS --function NAME
[--params HEX] [--fuel NUMBER] [--actor ADDRESS]`.
-/

namespace MeteredContracts.Cli

structure Invocation where
  config : Option String
  contract : Address
  function : String
  params : String
  fuel : Option UInt64
  actor : Option Address

inductive Stop
  | version
  | help
  | usage
  deriving DecidableEq, Repr

inductive Word
  | long (name : String) (value : Option String)
  | short (flag : Char) (rest : List Char)
  | terminator
  | plain

def Word.of (arg : String) : Word :=
  match arg.toList with
  | ['-', '-'] => .terminator
  | '-' :: '-' :: cs =>
    let name := cs.takeWhile (· ≠ '=')
    match cs.drop name.length with
    | [] => .long (.ofList name) none
    | _ :: value => .long (.ofList name) (some (.ofList value))
  | '-' :: c :: cs => .short c cs
  | _ => .plain

def number? (text : String) : Option UInt64 :=
  let cs := match text.toList with
    | '+' :: cs => cs
    | cs => cs
  let isDigit (c : Char) : Bool := '0' ≤ c && c ≤ '9'
  let n := cs.foldl (fun n c => 10 * n + (c.toNat - 48)) 0
  if !cs.isEmpty && cs.all isDigit && n < UInt64.size then some (.ofNat n) else none

def address? (text : String) : Option Address := (Address.parse text).toOption

def path? (text : String) : Option String := if text.isEmpty then none else some text

def accepts (name value : String) : Bool :=
  match name with
  | "config" => (path? value).isSome
  | "contract" | "actor" => (address? value).isSome
  | "fuel" => (number? value).isSome
  | _ => true

abbrev Options := List (String × String)

def Options.add (o : Options) (name value : String) : Except Stop Options :=
  if (o.lookup name).isSome || !accepts name value then .error .usage else .ok ((name, value) :: o)

def isValue (arg : String) : Bool :=
  match Word.of arg with
  | .plain => true
  | _ => false

def attached : List Char → Option String
  | [] => none
  | '=' :: cs => some (.ofList cs)
  | cs => some (.ofList cs)

def outer (o : Options) : List String → Except Stop (Options × List String)
  | [] => .error .usage
  | arg :: rest =>
    match Word.of arg with
    | .long "version" none => .error .version
    | .long "help" none => .error .help
    | .long "config" (some value) => do outer (← o.add "config" value) rest
    | .long "config" none => value o rest
    | .short 'V' _ => .error .version
    | .short 'h' _ => .error .help
    | .short 'c' cs =>
      match attached cs with
      | some text => do outer (← o.add "config" text) rest
      | none => value o rest
    | .plain =>
      if arg = "call" then .ok (o, rest)
      else if arg = "help" ∧ (rest = [] ∨ rest = ["call"] ∨ rest = ["help"]) then .error .help
      else .error .usage
    | _ => .error .usage
where
  value (o : Options) : List String → Except Stop (Options × List String)
    | [] => .error .usage
    | text :: rest => do
      if isValue text then outer (← o.add "config" text) rest else throw .usage

def names : List String := ["contract", "function", "params", "fuel", "actor"]

def inner (o : Options) : List String → Except Stop Options
  | [] => .ok o
  | arg :: rest =>
    match Word.of arg with
    | .terminator => if rest.isEmpty then .ok o else .error .usage
    | .long "help" none | .short 'h' _ => .error .help
    | .long name (some value) => do
      if names.contains name then inner (← o.add name value) rest else throw .usage
    | .long name none =>
      match rest with
      | [] => .error .usage
      | value :: rest => do
        if names.contains name ∧ isValue value then inner (← o.add name value) rest
        else throw .usage
    | _ => .error .usage

def orUsage {α : Type} : Option α → Except Stop α
  | some a => .ok a
  | none => .error .usage

def Options.read {α : Type} (o : Options) (name : String) (parse : String → Option α) : Option α :=
  (o.lookup name).bind parse

def Invocation.parse (environment : Option String) (args : List String) :
    Except Stop Invocation := do
  let (front, rest) ← outer [] args
  let o ← inner [] rest
  let config ← match front.read "config" path?, environment with
    | some path, _ => .ok (some path)
    | none, some text => (orUsage (path? text)).map some
    | none, none => .ok none
  .ok {
    config
    contract := ← orUsage (o.read "contract" address?)
    function := ← orUsage (o.lookup "function")
    params := (o.lookup "params").getD ""
    fuel := o.read "fuel" number?
    actor := o.read "actor" address? }

end MeteredContracts.Cli
