import SurfaceWater.Text.Lines

/-!
# Storage

Files and directories as one value, with the directory that a program works in. A path is a text of
names between slashes. It begins at the root if it begins with a slash and in the working directory
otherwise; empty names and `.` stand for nothing, `..` for the directory above, and the root is
above itself.
-/

namespace SurfaceWater

/-- The content of a file. -/
abbrev Bytes := Array UInt8

inductive StorageFault where
  | missing
  | notADirectory
  | isADirectory
  | busy
  | tooLong
  /-- A null character in a path that is opened. -/
  | nullCharacter
  /-- A path that nothing can be moved to. -/
  | invalidArgument
  deriving DecidableEq, Repr

def StorageFault.message : StorageFault → String
  | missing => "No such file or directory (os error 2)"
  | notADirectory => "Not a directory (os error 20)"
  | isADirectory => "Is a directory (os error 21)"
  | busy => "Device or resource busy (os error 16)"
  | tooLong => "File name too long (os error 36)"
  | nullCharacter => "file name contained an unexpected NUL byte"
  | invalidArgument => "Invalid argument (os error 22)"

/-- Where an entry is kept: the names that lead to it from the root. -/
abbrev Location := List String

/-- The path of a location other than the root, whose path is empty here. -/
def Location.path (location : Location) : String := String.join (location.map ("/" ++ ·))

inductive StorageEntry where
  | directory
  | file (content : Bytes)
  deriving DecidableEq

/-- What is kept where. The working directory and those above it are always there and not listed. -/
structure Storage where
  home : Location
  entries : List (Location × StorageEntry)

namespace Storage

def empty (home : Location) : Storage := ⟨home, []⟩

def get? (s : Storage) (location : Location) : Option StorageEntry :=
  if location.isPrefixOf s.home then some .directory else s.entries.lookup location

/-- Keeps an entry at a location, in place of what was there. -/
def insert (s : Storage) (location : Location) (entry : StorageEntry) : Storage :=
  { s with entries := (location, entry) :: s.entries.filter (·.1 ≠ location) }

def erase (s : Storage) (location : Location) : Storage :=
  { s with entries := s.entries.filter (·.1 ≠ location) }

/-- Keeps a directory and all directories on the way to it. -/
def addDirectory (s : Storage) (location : Location) : Storage :=
  let ways := (List.range location.length).map fun n => location.take (n + 1)
  ways.foldl (fun s way => if s.get? way = some .directory then s else s.insert way .directory) s

/-- Keeps a file and all directories on the way to it. -/
def addFile (s : Storage) (location : Location) (content : Bytes) : Storage :=
  (s.addDirectory location.dropLast).insert location (.file content)

def children (s : Storage) (location : Location) : List String :=
  s.entries.filterMap fun (entry, _) =>
    if entry.dropLast = location then entry.getLast? else none

end Storage

/-! ### Paths -/

def pathLimit : Nat := 4095

def nameLimit : Nat := 255

/-- The names of a path between its slashes, empty ones included. -/
def pathParts (path : String) : List String := (Text.segments '/' path.toList).map String.ofList

/-- The names that a path is followed by. -/
def pathSteps (path : String) : List String := (pathParts path).filter (· ≠ "")

/-- The names that a path goes through. -/
def pathNames (path : String) : List String := (pathSteps path).filter (· ≠ ".")

/-- A path that ends in a slash can only be a directory. -/
def endsInSlash (path : String) : Bool := path.endsWith "/"

def isAbsolute (path : String) : Bool := path.startsWith "/"

def hasNull (path : String) : Bool := path.toList.contains (Char.ofNat 0)

/-- The parts of a path up to its last name. -/
def trimParts (parts : List String) : List String :=
  (parts.reverse.dropWhile fun part => part = "" || part = ".").reverse

/-- The path of the directory that holds what a path leads to. It is empty if that is the working
directory, which also stands in for what is above the root. -/
def parentPath (path : String) : String :=
  let parts := trimParts (pathParts path)
  let above := trimParts parts.dropLast
  if above.isEmpty && !parts.isEmpty && isAbsolute path then "/" else "/".intercalate above

namespace Storage

def directory (s : Storage) (location : Location) : Except StorageFault Location :=
  match s.get? location with
  | none => .error .missing
  | some (.file _) => .error .notADirectory
  | some .directory => .ok location

/-- Follows one name from a location, which must be a directory. -/
def step (s : Storage) (location : Location) (name : String) : Except StorageFault Location := do
  let directory ← s.directory location
  if name = "." then return directory
  if name = ".." then return directory.dropLast
  if nameLimit < name.utf8ByteSize then throw .tooLong
  return directory ++ [name]

def origin (s : Storage) (path : String) : Location := if isAbsolute path then [] else s.home

/-- The location that a path leads to, whether anything is there or not. -/
def locate (s : Storage) (path : String) : Except StorageFault Location :=
  (pathSteps path).foldlM s.step (s.origin path)

/-- The entry that a path leads to. -/
def entry (s : Storage) (path : String) : Except StorageFault StorageEntry := do
  if hasNull path then throw .nullCharacter
  if path = "" then throw .missing
  if pathLimit < path.utf8ByteSize then throw .tooLong
  let location ← s.locate path
  match s.get? location with
  | none => throw .missing
  | some (.file content) => if endsInSlash path then throw .notADirectory else return .file content
  | some .directory => return .directory

/-! ### Staged files

A file is written under a name of its own beside its destination and moved there when it is
complete. -/

/-- The bytes that the path of a directory leaves free for a slash and the name of a staged file. -/
def stagedNameRoom : Nat := 11

/-- The bytes of a path when it begins at the root. -/
def fullPathSize (s : Storage) (path : String) : Nat :=
  if isAbsolute path then path.utf8ByteSize else s.home.path.utf8ByteSize + 1 + path.utf8ByteSize

/-- A name that no entry has. -/
def freshName (s : Storage) : String :=
  let longest := (s.entries.flatMap fun (location, _) => location.map String.length).foldl max 0
  String.ofList ('.' :: List.replicate (longest + 1) 's')

/-- Starts an empty staged file in the directory of a path. -/
def stage (s : Storage) (path : String) : Except StorageFault (Location × Storage) := do
  let parent := parentPath path
  if hasNull parent then throw .nullCharacter
  if pathLimit < s.fullPathSize parent + stagedNameRoom then throw .tooLong
  let directory ← s.directory (← s.locate parent)
  let location := directory ++ [s.freshName]
  return (location, s.insert location (.file #[]))

/-- Where a staged file for a path goes. -/
def destination (s : Storage) (path : String) : Except StorageFault Location := do
  if hasNull path then throw .invalidArgument
  if path = "" then throw .missing
  if pathLimit < path.utf8ByteSize then throw .tooLong
  let location ← s.locate path
  match (pathSteps path).getLast? with
  | none => throw .busy
  | some name =>
    if name = "." || name = ".." then throw .busy
    if endsInSlash path then throw .notADirectory
    if s.get? location = some .directory then throw .isADirectory
    return location

/-- Moves a complete staged file to its path. -/
def publish (s : Storage) (staged : Location) (content : Bytes) (path : String) : Except StorageFault Storage := do
  let location ← s.destination path
  return (s.erase staged).insert location (.file content)

end Storage

end SurfaceWater
