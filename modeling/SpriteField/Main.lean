import SpriteField.Version
import SpriteField.Workload.Run

/-!
# Command line

Runs the standard workload and prints its report.  The one optional argument names a configuration
file.
-/

namespace SpriteField

def readFile? (path : String) : IO (Option ByteArray) :=
  tryCatch (some <$> IO.FS.readBinFile path) fun _ => pure none

def loadConfig : List String → IO (Except EngineError EngineConfig)
  | [] => pure (.ok .standard)
  | path :: _ => EngineConfig.ofFile <$> readFile? path

def runCommand (args : List String) : IO UInt32 := do
  IO.println s!"engine version {version}"
  match ← loadConfig args with
  | .error error =>
    IO.eprintln error.message
    return 1
  | .ok config =>
    IO.println config.text
    match Workload.run config .standard with
    | .error failure =>
      IO.eprintln failure.message
      return 1
    | .ok report =>
      report.lines.forM fun line => IO.println line
      return 0

end SpriteField

def main (args : List String) : IO UInt32 :=
  SpriteField.runCommand args
