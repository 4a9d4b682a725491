import MeteredContracts.Cli.Session

namespace MeteredContracts.Cli

def usage : String :=
  "Usage: contract-runtime [--config FILE] call --contract ADDRESS --function NAME " ++
    "[--params HEX] [--fuel NUMBER] [--actor ADDRESS]"

def statisticsText (s : Statistics) : String :=
  "\n".intercalate [
    "\x7b",
    s!"  \"total_fuel_used\": {s.fuelUsed},",
    s!"  \"contract_calls\": {s.calls},",
    s!"  \"cache_hits\": {s.cacheHits},",
    s!"  \"avg_execution_time_us\": {s.averageTime}",
    "\x7d"]

def causesText : List String → String
  | [] => ""
  | [cause] => s!"\n\nCaused by:\n    {cause}"
  | causes =>
    "\n\nCaused by:" ++
      String.join (causes.zipIdx.map fun (cause, i) => s!"\n    {i}: {cause}")

def CliError.report (e : CliError) : String := s!"Error: {e.message}{causesText e.causes}"

def Exit.report : Exit → String × String
  | .stopped .version => (version, "")
  | .stopped .help => (usage, "")
  | .stopped .usage => ("", usage)
  | .failed e => ("", e.report)
  | .done result statistics => (s!"{Hex.encode result}\n{statisticsText statistics}", "")

end MeteredContracts.Cli
