import MeteredContracts.Loading.Artifact

namespace MeteredContracts

structure Validator where
  reports : Bool := false
  check : Bytes → Except String Unit

namespace Validator

def sizeLimit (max : Nat) : Validator where
  check bytes :=
    if bytes.isEmpty then .error "module is empty"
    else if max < bytes.length then
      .error s!"module is {bytes.length} bytes, limit is {max}"
    else if !Artifact.magic.isPrefixOf bytes then .error "missing wasm magic number"
    else .ok ()

def screen (start : Option Bytes) (reason : String) : Validator where
  reports := true
  check bytes := if start.any (·.isPrefixOf bytes) then .error reason else .ok ()

end Validator

end MeteredContracts
