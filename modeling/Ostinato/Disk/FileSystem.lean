import Ostinato.Disk.Path

/-!
# File systems

The operations that programs and audio files need of a disk, and a file system in memory that has them: a tree of
directories whose files are lists of bytes.  There are no links, so no two names lead to the same file.  A path is
followed from the root if it starts with a slash and from the current directory otherwise, and fails where the
operating system would: at a name that does not exist or is too long, at a file in the place of a directory, at a
directory in the place of a file.

* `Disk`: the operations, in any monad.
* `FileSystem.disk`: the operations on a file system in memory.
-/

namespace Ostinato

/-! ### Operations -/

/-- Why the operating system refuses an operation. -/
inductive OsError where
  | notFound
  | isDirectory
  | notDirectory
  | busy
  | nameTooLong
  /-- A path holds the character that ends a path for the operating system. -/
  | endedPath
  /-- The bytes of a file are no text. -/
  | notText
  | other (text : String)
deriving DecidableEq

def OsError.message : OsError → String
  | notFound => "No such file or directory (os error 2)"
  | isDirectory => "Is a directory (os error 21)"
  | notDirectory => "Not a directory (os error 20)"
  | busy => "Device or resource busy (os error 16)"
  | nameTooLong => "File name too long (os error 36)"
  | endedPath => "file name contained an unexpected NUL byte"
  | notText => "stream did not contain valid UTF-8"
  | other text => text

/-- Why bytes were not all written, and which of them are left in the buffer of the writer. -/
structure Unwritten where
  cause : OsError
  buffered : List UInt8

/-- The operations on a disk; paths are texts. -/
structure Disk (m : Type → Type) where
  /-- The bytes of a file. -/
  read (path : String) : m (Except OsError (List UInt8))
  /-- Makes a file without bytes, in the place of one that is there. -/
  create (path : String) : m (Except OsError Unit)
  /-- Adds bytes at the end of a file. -/
  append (path : String) (bytes : List UInt8) : m (Except Unwritten Unit)
  /-- Waits until a file is on the disk. -/
  sync (path : String) : m (Except OsError Unit)
  /-- Moves a file, in the place of one that is there. -/
  rename (source target : String) : m (Except OsError Unit)
  remove (path : String) : m (Except OsError Unit)

/-! ### File systems in memory -/

/-- The names on the way from the root to a file or directory. -/
abbrev Location := List String

inductive Node where
  | file (bytes : List UInt8)
  | directory
deriving DecidableEq

/-- The files and directories below the root, which is always there, and the current directory. -/
structure FileSystem where
  nodes : List (Location × Node) := []
  /-- Where the paths start that do not start at the root. -/
  home : Location := []
deriving DecidableEq

namespace FileSystem

def lookup (fs : FileSystem) (location : Location) : Option Node :=
  if location = [] then some .directory else (fs.nodes.find? (·.1 == location)).map (·.2)

def insert (fs : FileSystem) (location : Location) (node : Node) : FileSystem :=
  { fs with nodes := (location, node) :: fs.nodes.filter (·.1 != location) }

def erase (fs : FileSystem) (location : Location) : FileSystem :=
  { fs with nodes := fs.nodes.filter (·.1 != location) }

/-- The greatest number of bytes of a name. -/
def nameLimit : Nat := 255

/-- The greatest number of bytes of a path. -/
def pathLimit : Nat := 4095

/-- Refuses paths that lead nowhere in any file system. -/
def checkPath (path : String) : Except OsError Unit := do
  if path.contains '\x00' then throw .endedPath
  if path.isEmpty then throw .notFound
  if pathLimit < path.utf8ByteSize then throw .nameTooLong

/-- The directory that a path starts at. -/
def start (fs : FileSystem) (path : String) : Location :=
  if path.startsWith "/" then [] else fs.home

/-- Follows segments from a directory.  All but the last of them must lead to directories. -/
def walk (fs : FileSystem) (from_ : Location) : List String → Except OsError Location
  | [] => .ok from_
  | segment :: rest =>
    match fs.lookup from_ with
    | none => .error .notFound
    | some (.file _) => .error .notDirectory
    | some .directory =>
      if Path.isHere segment then walk fs from_ rest
      else if segment = ".." then walk fs from_.dropLast rest
      else if nameLimit < segment.utf8ByteSize then .error .nameTooLong
      else walk fs (from_ ++ [segment]) rest

/-- The location that a path leads to; there need not be anything. -/
def resolve (fs : FileSystem) (path : String) : Except OsError Location := do
  checkPath path
  fs.walk (fs.start path) (Path.segments path)

/-- The location of a file that is to be made: its directory must be there, and the path must end in a name of its
own. -/
def resolveNew (fs : FileSystem) (path : String) : Except OsError Location := do
  checkPath path
  match (Path.segments path).reverse.dropWhile (· == "") with
  | [] => throw .busy
  | last :: front =>
    let location ← fs.walk (fs.start path) (front.reverse ++ [""])
    if last = "." || last = ".." then throw .busy
    if nameLimit < last.utf8ByteSize then throw .nameTooLong
    return location ++ [last]

/-! ### Operations in memory -/

def read (fs : FileSystem) (path : String) : Except OsError (List UInt8) := do
  match fs.lookup (← fs.resolve path) with
  | none => throw .notFound
  | some .directory => throw .isDirectory
  | some (.file bytes) => return bytes

def create (fs : FileSystem) (path : String) : Except OsError FileSystem := do
  let location ← (fs.resolveNew path).mapError fun e => if e = .busy then .isDirectory else e
  if path.endsWith "/" then throw .isDirectory
  match fs.lookup location with
  | some .directory => throw .isDirectory
  | _ => return fs.insert location (.file [])

def append (fs : FileSystem) (path : String) (bytes : List UInt8) : Except OsError FileSystem := do
  let location ← fs.resolve path
  match fs.lookup location with
  | none => throw .notFound
  | some .directory => throw .isDirectory
  | some (.file held) => return fs.insert location (.file (held ++ bytes))

def rename (fs : FileSystem) (source target : String) : Except OsError FileSystem := do
  let old ← fs.resolve source
  let new ← fs.resolveNew target
  match fs.lookup old with
  | none => throw .notFound
  | some .directory => throw .isDirectory
  | some (.file bytes) =>
    if target.endsWith "/" then throw .notDirectory
    match fs.lookup new with
    | some .directory => throw .isDirectory
    | _ => return (fs.erase old).insert new (.file bytes)

def remove (fs : FileSystem) (path : String) : Except OsError FileSystem := do
  let location ← fs.resolve path
  match fs.lookup location with
  | none => throw .notFound
  | some .directory => throw .isDirectory
  | some (.file _) => return fs.erase location

/-- Makes directories below a location, each in the one before it, where they are not there yet. -/
def makeBelow (fs : FileSystem) (location : Location) : List String → Except OsError FileSystem
  | [] => .ok fs
  | segment :: rest =>
    if Path.isHere segment then makeBelow fs location rest
    else if segment = ".." then makeBelow fs location.dropLast rest
    else
      match fs.lookup (location ++ [segment]) with
      | none => makeBelow (fs.insert (location ++ [segment]) .directory) (location ++ [segment]) rest
      | some .directory => makeBelow fs (location ++ [segment]) rest
      | some (.file _) => .error .notDirectory

/-- Makes a directory, and those that it lies in if they are not there. -/
def makeDirectory (fs : FileSystem) (path : String) : Except OsError FileSystem :=
  fs.makeBelow (fs.start path) (Path.segments path)

/-- The file system whose current directory is at the given location, where the directories on the way are made if
they are not there. -/
def enter (fs : FileSystem) (location : Location) : Except OsError FileSystem :=
  (fs.makeBelow [] location).map fun made => { made with home := location }

/-- The paths of everything below the current directory, in the order of their characters; those of directories end
in a slash. -/
def names (fs : FileSystem) : List String :=
  let below := fs.nodes.filter fun (location, _) => fs.home.isPrefixOf location && location != fs.home
  (below.map fun (location, node) =>
    let path := Path.join (location.drop fs.home.length)
    match node with
    | .file _ => path
    | .directory => path ++ "/").mergeSort (· ≤ ·)

/-- Replaces the file system by the result of an operation, unless the operation fails. -/
def perform (operation : FileSystem → Except OsError FileSystem) : StateM FileSystem (Except OsError Unit) :=
  fun fs =>
    match operation fs with
    | .ok fs => (.ok (), fs)
    | .error e => (.error e, fs)

def disk : Disk (StateM FileSystem) where
  read path := fun fs => (fs.read path, fs)
  create path := perform (·.create path)
  append path bytes := Except.mapError (⟨·, bytes⟩) <$> perform (·.append path bytes)
  sync path := perform fun fs => (fs.read path).map fun _ => fs
  rename source target := perform (·.rename source target)
  remove path := perform (·.remove path)

end FileSystem

end Ostinato
