import MeteredContracts.Sandbox.Basic

namespace MeteredContracts.Sandbox

def classify (s : Sandbox) (f : Failure) : CallError :=
  f.classify (fun _ => backtrace) s.box.timeout

def placePayload (s : Sandbox) (payload : Bytes) (w : World) :
    Except CallError Nat × Sandbox × World :=
  let fail (reason : String) : CallError := .memoryWrite reason
  if !s.box.module.exportsMemory then (.error (fail "module does not export `memory`"), s, w)
  else match s.box.module.exportedFunction? "alloc" with
    | none =>
      (.error (fail "`alloc` export unusable: failed to find function export `alloc`"), s, w)
    | some index =>
      if s.box.program.type? index ≠ some ⟨[.i32], [.i32]⟩ then
        (.error (fail
          "`alloc` export unusable: failed to convert function `alloc` to given type"), s, w)
      else if Int32.maxValue.toInt < payload.length then
        (.error (fail "payload exceeds guest address space"), s, w)
      else match s.run index [.ofNat payload.length] w with
        | (.error f, s, w) =>
          match s.classify f with
          | .fuelExhausted => (.error .fuelExhausted, s, w)
          | .timeout ms => (.error (.timeout ms), s, w)
          | e => (.error (fail s!"`alloc` failed: {e.message}"), s, w)
        | (.ok results, ⟨box, ⟨⟨bytes, limit⟩, globals, meter⟩, result, delegate⟩, w) =>
          let place := (results.headD 0).int32
          if place < 0 then
            (.error (fail s!"`alloc` returned {place}"),
              ⟨box, ⟨⟨bytes, limit⟩, globals, meter⟩, result, delegate⟩, w)
          else if bytes.size < place.toNat + payload.length then
            (.error (fail "out of bounds memory access"),
              ⟨box, ⟨⟨bytes, limit⟩, globals, meter⟩, result, delegate⟩, w)
          else
            (.ok place.toNat,
              ⟨box, ⟨⟨Wasm.Memory.overwrite bytes place.toNat payload, limit⟩, globals, meter⟩,
                result, delegate⟩, w)

def invoke (s : Sandbox) (function : String) (payload : Bytes) (w : World) :
    Except CallError Bytes × Sandbox × World :=
  match s.placePayload payload w with
  | (.error e, s, w) => (.error e, s, w)
  | (.ok place, s, w) =>
    match s.box.module.exportedFunction? function with
    | none => (.error (.exportMissing function), s, w)
    | some index =>
      if (s.box.program.type? index).map (·.params) ≠ some [.i32] then
        (.error (.trap "wrong arguments" none), s, w)
      else match s.run index [.ofNat place] w with
        | (.ok _, s, w) => (.ok (s.result.getD []), { s with result := none }, w)
        -- what has been recorded stays where it is
        | (.error f, s, w) => (.error (s.classify f), s, w)

end MeteredContracts.Sandbox
