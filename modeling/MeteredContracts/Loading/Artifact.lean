import MeteredContracts.Error
import MeteredContracts.Hash.Sha256
import MeteredContracts.Text.Hex
import MeteredContracts.Wasm.Validation

namespace MeteredContracts

structure Artifact where
  module : Wasm.Module
  digest : String
  size : Nat
  deriving Inhabited

namespace Wasm

def ValueType.text : ValueType → String
  | .i32 => "i32"
  | .i64 => "i64"
  | .f32 => "f32"
  | .f64 => "f64"

def FunctionType.text (t : FunctionType) : String :=
  let part (keyword : String) (types : List ValueType) : List String :=
    if types.isEmpty then []
    else [" (" ++ " ".intercalate (keyword :: types.map ValueType.text) ++ ")"]
  String.join (["(func"] ++ part "param" t.params ++ part "result" t.results ++ [")"])

inductive Entry
  | missing
  | callable
  | mismatched (type : FunctionType)
  deriving DecidableEq, Repr

def Entry.name : Entry → String
  | .missing => "missing"
  | .callable => "callable"
  | .mismatched _ => "mismatched"

def Module.entry (m : Module) (name : String) : Entry :=
  match (m.exportedFunction? name).bind m.functionType? with
  | none => .missing
  | some type => if type.params = [.i32] then .callable else .mismatched type

end Wasm

namespace Artifact

def magic : Bytes := [0x00, 0x61, 0x73, 0x6d]

def compile (bytes : Bytes) : Except CallError Artifact :=
  if bytes.length < 8 then .error (.compilation "Invalid Wasm: file too small")
  else if !magic.isPrefixOf bytes then .error (.compilation "Invalid Wasm: bad magic number")
  else match Wasm.Module.ofBytes bytes with
    | .error .malformed =>
      .error (.compilation "Module compilation failed: failed to parse WebAssembly module")
    | .error .illTyped =>
      .error (.compilation "Module compilation failed: WebAssembly translation error")
    -- how large the code is that an engine makes of the bytes, can only be guessed
    | .ok module => .ok ⟨module, Hex.encode (Sha256.hash bytes), 4096 + 16 * bytes.length⟩

def checkEntry (a : Artifact) (function : String) : Except CallError Unit :=
  match a.module.entry function with
  | .callable => .ok ()
  | .missing => .error (.exportMissing function)
  | .mismatched type => .error (.signatureMismatch function type.text)

end Artifact

end MeteredContracts
