import BinFleet.Settings.Help
import BinFleet.Settings.Options

namespace BinFleet.CommandLine

/-- The file at a path, if it can be read. -/
def fileAt (path : String) : IO (Option (List UInt8)) := do
  try
    let bytes ← IO.FS.readBinFile path
    return some bytes.toList
  catch _ => return none

def environmentOf (names : List String) : IO Environment := do
  let pairs ← names.filterMapM fun name => do
    return (← IO.getEnv name).map fun value => (name, Text.Utf8.ofString value)
  return Environment.ofList pairs

def complain (message : String) : IO Unit := do
  (← IO.getStderr).putStrLn message

def run (o : Options) : IO UInt32 := do
  if o.help then
    IO.print helpText
    return 0
  let file ← fileAt o.configPath
  let environment ← environmentOf (Config.variableNames file)
  match (Config.load environment file o.mode).2 with
  | .error f =>
    complain ("failed to configure application: " ++ f.message)
    IO.print helpText
    return 2
  | .ok c =>
    (← IO.getStdout).write (ByteArray.mk c.printout.toArray)
    for w in c.warnings do
      complain ("insecure configuration: " ++ w)
    complain ("failed to run application: " ++ Cause.serviceNotInitialized.message)
    return 1

end BinFleet.CommandLine

def main (arguments : List String) : IO UInt32 := do
  match BinFleet.Options.read {} arguments with
  | .ok o => BinFleet.CommandLine.run o
  | .error e => do
    BinFleet.CommandLine.complain e
    return 2
