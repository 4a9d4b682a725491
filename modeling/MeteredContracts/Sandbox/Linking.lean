import MeteredContracts.Loading.Artifact
import MeteredContracts.Sandbox.HostFunction

namespace MeteredContracts

inductive LinkError
  | unknown (i : Wasm.Import)
  | function (i : Wasm.Import) (expected found : Wasm.FunctionType)
  | kind (i : Wasm.Import)

namespace LinkError

def label (i : Wasm.Import) : String := s!"`{i.module}::{i.name}`"

def kindName : Wasm.ImportKind → String
  | .function _ => "function"
  | .table _ => "table"
  | .memory _ => "memory"
  | .global _ => "global"

def message : LinkError → String
  | .unknown i => s!"unknown import: {label i} has not been defined"
  | .function i expected found =>
    s!"incompatible import type for {label i}: types incompatible: " ++
      s!"expected type `{expected.text}`, found type `{found.text}`"
  | .kind i =>
    s!"incompatible import type for {label i}: expected {kindName i.kind}, but found function"

end LinkError

def linkImport (host : List HostFunction) (i : Wasm.Import) : Except LinkError HostFunction :=
  match HostFunction.find? host i.module i.name with
  | none => .error (.unknown i)
  | some f =>
    match i.kind with
    | .function type => if type = f.type then .ok f else .error (.function i type f.type)
    | _ => .error (.kind i)

def link (host : List HostFunction) (imports : List Wasm.Import) :
    Except LinkError (List HostFunction) :=
  -- all imports are looked up before the type of any is compared
  match imports.find? fun i => (HostFunction.find? host i.module i.name).isNone with
  | some i => .error (.unknown i)
  | none => imports.mapM (linkImport host)

end MeteredContracts
