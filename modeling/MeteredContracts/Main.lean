import MeteredContracts.Cli.Report

namespace MeteredContracts.Cli

def readFile (path : String) : IO (Except FileError Bytes) := do
  if path.toList.contains '\x00' then return .error .badName
  try
    return .ok (← IO.FS.readBinFile path).data.toList
  catch
    | .noFileOrDirectory .. => return .error .notFound
    | e => return .error (.other (toString e))

end MeteredContracts.Cli

def main (args : List String) : IO UInt32 := do
  let environment ← IO.getEnv "CONTRACT_RUNTIME_CONFIG"
  let exit ← MeteredContracts.Cli.run MeteredContracts.Cli.readFile environment args
  let (out, err) := exit.report
  unless out.isEmpty do IO.println out
  unless err.isEmpty do IO.eprintln err
  return exit.code
