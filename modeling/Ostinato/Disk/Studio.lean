import Ostinato.Audio.Render
import Ostinato.Disk.Save
import Ostinato.Source.Assembly

/-!
# From file to file

A program text is read from a file, compiled, rendered and saved as an audio file.
-/

namespace Ostinato

/-- Why no audio file was made of a program text. -/
inductive StudioError where
  | unreadable (path : String) (cause : OsError)
  | render (cause : AudioError)
  | unwritable (path : String) (cause : SaveError)
deriving DecidableEq

namespace StudioError

/-- Whether the program ends at once. -/
def isFatal : StudioError → Bool
  | render .pitchOverflow => true
  | unwritable _ cause => cause.isFatal
  | _ => false

def message : StudioError → String
  | unreadable path cause => "Couldn't read " ++ path ++ ": " ++ cause.message
  | render cause => cause.message
  | unwritable path cause =>
    if cause.isFatal then cause.message else "Couldn't write " ++ path ++ ": " ++ cause.message

end StudioError

/-- A compiled program with its text. -/
structure Compiled where
  source : String
  assembly : Assembly

/-- What was saved. -/
structure Summary where
  exit : Exit
  events : Nat
  samples : Nat
deriving DecidableEq

variable {m : Type → Type} [Monad m]

def readText (disk : Disk m) (path : String) : m (Except OsError String) := do
  match ← disk.read path with
  | .error e => return .error e
  | .ok bytes =>
    match String.fromUTF8? ⟨bytes.toArray⟩ with
    | none => return .error .notText
    | some text => return .ok text

/-- Compiles the text of a file. -/
def compileFile (disk : Disk m) (input : String) : m (Except StudioError Compiled) := do
  match ← readText disk input with
  | .error e => return .error (.unreadable input e)
  | .ok source => return .ok ⟨source, compile source⟩

/-- Renders a program and saves it as an audio file. -/
def renderToFile (disk : Disk m) (program : Program) (output : String) (config : RenderConfig) :
    m (Except StudioError Summary) := do
  match render program config with
  | .error e => return .error (.render e)
  | .ok result =>
    let samples := quantizeAll result.master
    match ← saveWave disk output samples config.sampleRate with
    | .error e => return .error (.unwritable output e)
    | .ok () => return .ok ⟨result.exit, result.events.length, samples.length⟩

/-- Compiles the text of a file, renders the program and saves it as an audio file. -/
def renderFile (disk : Disk m) (input output : String) (config : RenderConfig) :
    m (Except StudioError Summary) := do
  match ← compileFile disk input with
  | .error e => return .error e
  | .ok compiled => renderToFile disk compiled.assembly.program output config

end Ostinato
