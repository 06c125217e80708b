import ScanParse.Command.Basic

namespace ScanParse.Program

/-- The variables that a command looks at. -/
def watched : List String :=
  ["CLICOLOR_FORCE", "NO_COLOR", "RUST_LOG"]

def environment : IO Environment := do
  let mut values : List (String × String) := []
  for name in watched do
    match ← IO.getEnv name with
    | some value => values := (name, value) :: values
    | none => pure ()
  return fun name => values.lookup name

/-- The cause behind a failure of the system. -/
def cause : IO.Error → ReadError
  | .noFileOrDirectory .. => .notFound
  | .inappropriateType _ code _ => if code = 20 then .notDirectory else .isDirectory
  | failure => .other (toString failure)

def readFile (path : String) : IO (Except ReadError ByteArray) := do
  try
    return .ok (← IO.FS.readBinFile path)
  catch failure =>
    return .error (cause failure)

/-- Writes what a command leaves, and gives its exit code. -/
def leave (outcome : Command.Outcome) : IO UInt32 := do
  IO.print outcome.output
  IO.eprint outcome.errors
  return outcome.exit.toUInt32

end ScanParse.Program

open ScanParse in
/-- Log lines carry a fixed mark where the time would stand. -/
def main (words : List String) : IO UInt32 := do
  match Command.start (← Program.environment) "<time>" words with
  | .inl outcome => Program.leave outcome
  | .inr pending =>
      Program.leave (pending.finish (← Program.readFile pending.arguments.file))
