import Ostinato.Command.Run

/-!
# The program

The command on the real disk: files are read and written through the operating system, the noise of a render without
a seed is seeded at random, and what the command says goes to the standard streams.
-/

namespace Ostinato

/-- The cause of a failure that the operating system reports; error codes may be negated. -/
def OsError.ofReport : IO.Error → OsError
  | .noFileOrDirectory .. => notFound
  | .inappropriateType _ code _ => if code = 20 || code = -20 then notDirectory else isDirectory
  | .resourceBusy .. => busy
  | .invalidArgument _ code details => if code = 36 || code = -36 then nameTooLong else other details
  | report => other (toString report)

/-- Runs an operation and gives its failure as a value. -/
def attempt {α : Type} (operation : IO α) : IO (Except OsError α) := do
  match ← operation.toBaseIO with
  | .ok result => return .ok result
  | .error report => return .error (OsError.ofReport report)

/-- The disk of the computer. -/
def systemDisk : Disk IO where
  read path := attempt do return (← IO.FS.readBinFile path).toList
  create path := attempt (IO.FS.writeBinFile path ByteArray.empty)
  -- closing the file has written what it could by the time the failure is reported
  append path bytes := Except.mapError (⟨·, []⟩) <$> attempt (IO.FS.withFile path .append (·.write ⟨bytes.toArray⟩))
  sync path := attempt (IO.FS.withFile path .append (·.flush))
  rename source target := attempt (IO.FS.rename source target)
  remove path := attempt (IO.FS.removeFile path)

def randomWord : IO UInt64 := do
  return (← IO.getRandomBytes 8).toList.foldl (fun word byte => (word <<< 8) ||| byte.toUInt64) 0

end Ostinato

open Ostinato in
/-- Does what the arguments ask for and answers with the exit code. -/
def main (arguments : List String) : IO UInt32 := do
  let response ← runCommand systemDisk (← randomWord) arguments
  IO.print response.output
  IO.eprint response.reports
  for line in response.progress ++ response.notice.toList do
    IO.eprintln line
  return response.code.toUInt32
