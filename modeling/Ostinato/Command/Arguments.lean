/-!
# Command line arguments

The command takes one file and a number of flags.  A flag with a value takes it from the same argument, behind an
equals sign or at once behind a letter, or from the next argument.  Arguments are read in order, and the first one
that is wrong or asks for help ends the reading; flags that exclude each other and missing arguments are found at the
end.

* `Request.ofArguments`: what the arguments ask for.
-/

namespace Ostinato

/-! ### Requests -/

/-- The settings of a render, as the arguments give them. -/
structure Settings where
  input : String
  output : String
  sampleRate : UInt32
  seed : Option UInt64
  maxInstructions : Option Nat
  tailTicks : UInt64
  quiet : Bool
deriving DecidableEq

/-- What the arguments ask for. -/
inductive Request where
  | help
  | version
  | render (settings : Settings)
  | invalid
deriving DecidableEq

/-- Why the reading of arguments ended early. -/
inductive Stop where
  | help
  | version
  | invalid
deriving DecidableEq

/-! ### Flags -/

/-- The flags with a value. -/
inductive Setting where
  | output
  | sampleRate
  | seed
  | maxInstructions
  | tailTicks
deriving DecidableEq

/-- The flags without a value. -/
inductive Switch where
  | unbounded
  | verbose
  | quiet
  | help
  | version
deriving DecidableEq

inductive Flag where
  | setting (setting : Setting)
  | switch (switch : Switch)
deriving DecidableEq

def Flag.ofName? (name : String) : Option Flag :=
  match name with
  | "output" => some (.setting .output)
  | "sample-rate" => some (.setting .sampleRate)
  | "seed" => some (.setting .seed)
  | "max-instructions" => some (.setting .maxInstructions)
  | "tail-ticks" => some (.setting .tailTicks)
  | "unbounded" => some (.switch .unbounded)
  | "verbose" => some (.switch .verbose)
  | "quiet" => some (.switch .quiet)
  | "help" => some (.switch .help)
  | "version" => some (.switch .version)
  | _ => none

def Flag.ofLetter? (letter : Char) : Option Flag :=
  match letter with
  | 'o' => some (.setting .output)
  | 'r' => some (.setting .sampleRate)
  | 'v' => some (.switch .verbose)
  | 'q' => some (.switch .quiet)
  | 'h' => some (.switch .help)
  | 'V' => some (.switch .version)
  | _ => none

/-! ### Values -/

/-- A decimal number, which may have a plus sign in front. -/
def decimal? (text : String) : Option Nat :=
  let digits := match text.toList with
    | '+' :: rest => rest
    | all => all
  if digits.isEmpty || digits.any (!·.isDigit) then none
  else some (digits.foldl (fun value digit => 10 * value + (digit.toNat - '0'.toNat)) 0)

/-- A decimal number of at most 64 bits. -/
def word? (text : String) : Option Nat :=
  (decimal? text).filter (· < UInt64.size)

/-- The number of instructions after which programs are stopped by default. -/
def defaultMaxInstructions : Nat := 10000000

/-- The greatest sample rate that can be asked for. -/
def greatestSampleRate : Nat := 384000

/-- A sample rate that can be asked for. -/
def sampleRate? (text : String) : Option UInt32 :=
  ((decimal? text).filter fun rate => 1 ≤ rate && rate ≤ greatestSampleRate).map UInt32.ofNat

/-! ### Reading -/

/-- What the arguments read so far have given. -/
structure Given where
  input : Option String := none
  output : Option String := none
  sampleRate : Option UInt32 := none
  seed : Option UInt64 := none
  maxInstructions : Option Nat := none
  tailTicks : Option UInt64 := none
  unbounded : Bool := false
  verbosity : Nat := 0
  quiet : Bool := false
deriving DecidableEq

/-- A value that was not given before and can be read. -/
def fresh {α : Type} (before : Option α) (value : Option α) : Except Stop (Option α) :=
  match before, value with
  | none, some value => .ok (some value)
  | _, _ => .error .invalid

/-- A path is not empty. -/
def path? (text : String) : Option String :=
  if text.isEmpty then none else some text

namespace Given

/-- Takes the value of a flag. -/
def assign (given : Given) (setting : Setting) (value : String) : Except Stop Given :=
  match setting with
  | .output => do return { given with output := ← fresh given.output (path? value) }
  | .sampleRate => do return { given with sampleRate := ← fresh given.sampleRate (sampleRate? value) }
  | .seed => do return { given with seed := ← fresh given.seed ((word? value).map UInt64.ofNat) }
  | .maxInstructions => do
    return { given with maxInstructions := ← fresh given.maxInstructions (word? value) }
  | .tailTicks => do
    return { given with tailTicks := ← fresh given.tailTicks ((word? value).map UInt64.ofNat) }

/-- Takes a flag without a value; only `verbose` may be repeated. -/
def turnOn (given : Given) (switch : Switch) : Except Stop Given :=
  match switch with
  | .unbounded => if given.unbounded then .error .invalid else .ok { given with unbounded := true }
  | .verbose => .ok { given with verbosity := given.verbosity + 1 }
  | .quiet => if given.quiet then .error .invalid else .ok { given with quiet := true }
  | .help => .error .help
  | .version => .error .version

def file (given : Given) (path : String) : Except Stop Given := do
  return { given with input := ← fresh given.input (path? path) }

/-- Takes flags that are given by their letters.  A flag with a value takes the rest of the letters as the value,
after an equals sign if there is one; if nothing is left its value is still to come. -/
def letters (given : Given) : List Char → Except Stop (Given × Option Setting)
  | [] => .ok (given, none)
  | letter :: rest =>
    match Flag.ofLetter? letter with
    | none => .error .invalid
    | some (.switch switch) => do letters (← given.turnOn switch) rest
    | some (.setting setting) =>
      match rest with
      | [] => .ok (given, some setting)
      | '=' :: value => do return (← given.assign setting (String.ofList value), none)
      | value => do return (← given.assign setting (String.ofList value), none)

/-- Takes a flag that is given by its name, which may be followed by an equals sign and a value; if it has none, the
value of a flag that needs one is still to come. -/
def name (given : Given) (text : List Char) : Except Stop (Given × Option Setting) :=
  let value := (text.dropWhile (· ≠ '=')).tail?
  match Flag.ofName? (String.ofList (text.takeWhile (· ≠ '='))), value with
  | none, _ => .error .invalid
  | some (.switch switch), none => do return (← given.turnOn switch, none)
  | some (.switch _), some _ => .error .invalid
  | some (.setting setting), none => .ok (given, some setting)
  | some (.setting setting), some value => do return (← given.assign setting (String.ofList value), none)

/-- Takes arguments none of which is a flag. -/
def files (given : Given) : List String → Except Stop Given
  | [] => .ok given
  | path :: rest => do files (← given.file path) rest

end Given

inductive Shape where
  /-- Two hyphens: all later arguments are files. -/
  | separator
  | name (text : List Char)
  | letters (text : List Char)
  | value

/-- The kind of an argument; a single hyphen is a value. -/
def Shape.of (argument : String) : Shape :=
  match argument.toList with
  | ['-', '-'] => separator
  | '-' :: '-' :: text => name text
  | '-' :: c :: text => letters (c :: text)
  | _ => value

/-- Whether an argument can be the value of the flag in front of it. -/
def isValue (argument : String) : Bool :=
  match Shape.of argument with
  | .value => true
  | _ => false

def Given.read (given : Given) : List String → Except Stop Given
  | [] => .ok given
  | argument :: rest =>
    let flag := match Shape.of argument with
      | .separator => none
      | .name text => some (given.name text)
      | .letters text => some (given.letters text)
      | .value => some do return (← given.file argument, none)
    match flag with
    | none => given.files rest
    | some (.error stop) => .error stop
    | some (.ok (given, none)) => given.read rest
    | some (.ok (given, some setting)) =>
      match rest with
      | [] => .error .invalid
      | value :: rest =>
        if isValue value then
          match given.assign setting value with
          | .error stop => .error stop
          | .ok given => given.read rest
        else .error .invalid

/-- What complete arguments ask for: the file and the output must be there, and no flag may exclude another. -/
def Given.request (given : Given) : Request :=
  match given.input, given.output with
  | some input, some output =>
    if given.unbounded && given.maxInstructions.isSome || given.quiet && 0 < given.verbosity then .invalid
    else
      .render {
        input
        output
        sampleRate := given.sampleRate.getD 44100
        seed := given.seed
        maxInstructions :=
          if given.unbounded then none else some (given.maxInstructions.getD defaultMaxInstructions)
        tailTicks := given.tailTicks.getD 0
        quiet := given.quiet }
  | _, _ => .invalid

def Request.ofArguments (arguments : List String) : Request :=
  match ({} : Given).read arguments with
  | .ok given => given.request
  | .error .help => .help
  | .error .version => .version
  | .error .invalid => .invalid

end Ostinato
