import Ostinato.Audio.Wave
import Ostinato.Disk.FileSystem

/-!
# Saving audio

An audio file is never seen half written: its bytes go to a file beside it, which takes its place once they are all
on the disk.  If anything fails the file beside it is removed again and the old file stays, with one exception: a
sample rate whose number of bytes per second overflows ends the program at once, and what was written stays.

The bytes go through a buffer.  A writer that is given up still writes what is left in it, and whether that succeeds is
not asked.
-/

namespace Ostinato

/-- Why an audio file was not saved. -/
inductive SaveError where
  | os (cause : OsError)
  | encoding (cause : WriteError)
deriving DecidableEq

namespace SaveError

def message : SaveError → String
  | os cause => cause.message
  | encoding cause => cause.message

/-- Whether the program ends at once, without tidying up. -/
def isFatal : SaveError → Bool
  | encoding .byteRateOverflow => true
  | _ => false

end SaveError

variable {m : Type → Type} [Monad m]

/-! ### Buffered writing -/

/-- Gives a writer up: what is left in its buffer is written if possible. -/
def giveUp (disk : Disk m) (path : String) (buffered : List UInt8) : m Unit := do
  let _ ← disk.append path buffered

/-- Adds bytes to a file, and gives the writer up if that fails. -/
def writeBytes (disk : Disk m) (path : String) (bytes : List UInt8) : m (Except OsError Unit) := do
  match ← disk.append path bytes with
  | .ok () => return .ok ()
  | .error unwritten =>
    giveUp disk path unwritten.buffered
    return .error unwritten.cause

/-! ### Saving -/

/-- An operation on a disk as a step of saving. -/
def saveStep (operation : m (Except OsError Unit)) : ExceptT SaveError m Unit :=
  ExceptT.mk ((Except.mapError SaveError.os) <$> operation)

/-- Writes the bytes of a file and waits until they are on the disk.  Encoding fails at the start of a file or in its
header, when all that was taken is still in the buffer. -/
def writeFile (disk : Disk m) (path : String) (written : Written) : ExceptT SaveError m Unit := do
  saveStep (disk.create path)
  match written.failure with
  | some cause =>
    ExceptT.lift (giveUp disk path written.taken.toList)
    throw (.encoding cause)
  | none =>
    saveStep (writeBytes disk path written.taken.toList)
    saveStep (disk.sync path)

/-- Saves samples as an audio file, with another file in between. -/
def saveWave (disk : Disk m) (path : String) (samples : List Int16) (sampleRate : UInt32) :
    m (Except SaveError Unit) := do
  let beside := Path.partialPath path
  let result ← ExceptT.run do
    writeFile disk beside (waveBytes samples sampleRate)
    saveStep (disk.rename beside path)
  match result with
  | .ok () => return .ok ()
  | .error e =>
    if !e.isFatal then
      let _ ← disk.remove beside
    return .error e

end Ostinato
