import Ostinato.Command.Arguments
import Ostinato.Disk.Studio
import Ostinato.Source.Report

/-!
# The command

The command compiles a file, reports its faults in colour, and saves the rendered audio.
-/

namespace Ostinato

/-- What the command answers. -/
structure Response where
  code : UInt8
  output : String := ""
  /-- The reports on the faults of the program text. -/
  reports : String := ""
  /-- What was done, step by step; nothing if the command is to be quiet. -/
  progress : List String := []
  /-- Why the command failed, or what went unexpectedly, if anything did. -/
  notice : Option String := none
deriving DecidableEq

/-- The description of the arguments. -/
def usage : String :=
  "Render GBASM music programs to WAV\n\n" ++
  "Usage: gbasm [OPTIONS] --output <WAV_FILE> <GBASM_FILE>\n\n" ++
  "Arguments:\n" ++
  "  <GBASM_FILE>  input program\n\n" ++
  "Options:\n" ++
  "  -o, --output <WAV_FILE>     output wave file\n" ++
  "  -r, --sample-rate <HZ>      output sample rate [default: 44100]\n" ++
  "      --seed <N>              seed the drum noise for a reproducible render\n" ++
  "      --max-instructions <N>  stop programs that run longer than this [default: 10000000]\n" ++
  "      --unbounded             never stop a program early\n" ++
  "      --tail-ticks <TICKS>    silence to append after the last note [default: 0]\n" ++
  "  -v, --verbose...            more logging, repeat for more\n" ++
  "  -q, --quiet                 only log warnings and errors\n" ++
  "  -h, --help                  Print help\n" ++
  "  -V, --version               Print version\n"

def versionText : String := "gbasm 0.1.0\n"

def exitSuccess : UInt8 := 0

def exitFailure : UInt8 := 1

/-- The exit code of a program that was ended at once. -/
def exitAborted : UInt8 := 101

/-- What a render depends on, where `entropy` seeds the noise if the arguments do not. -/
def Settings.config (settings : Settings) (entropy : UInt64) : RenderConfig where
  sampleRate := settings.sampleRate
  noiseSeed := settings.seed.getD entropy
  maxInstructions := settings.maxInstructions
  tailTicks := settings.tailTicks

/-- The notice that a program was stopped early. -/
def Settings.stoppedEarly (settings : Settings) : String :=
  settings.input ++ " did not finish within " ++ toString (settings.maxInstructions.getD 0) ++
    " instructions, rendered what it scheduled"

/-- The progress that is told, unless the command is to be quiet. -/
def Settings.told (settings : Settings) (progress : List String) : List String :=
  if settings.quiet then [] else progress

def Settings.loaded (settings : Settings) (program : Program) : String :=
  "loaded " ++ toString program.size ++ " instructions from " ++ settings.input

def Settings.saved (settings : Settings) (summary : Summary) : String :=
  "wrote " ++ settings.output ++ " (" ++ toString (summary.samples * blockAlign.toNat) ++ " bytes of audio)"

def Response.failure (e : StudioError) (reports : String) (progress : List String) : Response :=
  { code := if e.isFatal then exitAborted else exitFailure, reports, progress, notice := some e.message }

variable {m : Type → Type} [Monad m]

/-- Compiles, reports, renders and saves. -/
def Settings.execute (settings : Settings) (disk : Disk m) (entropy : UInt64) : m Response := do
  match ← compileFile disk settings.input with
  | .error e => return Response.failure e "" []
  | .ok compiled =>
    let program := compiled.assembly.program
    let reports := reports Piece.coloured compiled.source compiled.assembly.diagnostics
    match ← renderToFile disk program settings.output (settings.config entropy) with
    | .error e => return Response.failure e reports (settings.told [settings.loaded program])
    | .ok summary =>
      return {
        code := exitSuccess
        reports
        progress := settings.told [settings.loaded program, settings.saved summary]
        notice := if summary.exit = .instructionLimit then some settings.stoppedEarly else none }

/-- Does what the arguments ask for. -/
def runCommand (disk : Disk m) (entropy : UInt64) (arguments : List String) : m Response :=
  match Request.ofArguments arguments with
  | .help => return { code := exitSuccess, output := usage }
  | .version => return { code := exitSuccess, output := versionText }
  | .invalid => return { code := exitFailure, notice := some usage }
  | .render settings => settings.execute disk entropy

end Ostinato
