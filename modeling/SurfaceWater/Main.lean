import Std.Time.DateTime
import SurfaceWater.CommandLine.Outcome

/-!
# The program

Fetches the files that the arguments name, runs the program on them, prints its log and what it says,
and keeps what it left.
-/

namespace SurfaceWater

/-- The location of the directory that the program works in. -/
def workingDirectory : IO Location := do
  let path ← IO.FS.realPath "."
  return pathNames path.toString

/-- Adds what is kept at a location of the disk, if anything is. -/
def fetchEntry (storage : Storage) (location : Location) : IO Storage := do
  try
    let path ← IO.FS.realPath location.path
    if ← path.isDir then return storage.addDirectory location
    let content ← IO.FS.readBinFile path
    return storage.addFile location content.data
  catch _ => return storage

/-- Adds what is kept at a path and on the way to it. -/
def fetchPath (storage : Storage) (path : String) : IO Storage := do
  let mut storage := storage
  let mut location := storage.origin path
  for name in pathNames path do
    if name = ".." then location := location.dropLast
    else
      location := location ++ [name]
      storage ← fetchEntry storage location
  return storage

/-- Writes a file beside its path and moves it there. -/
def keepFile (path : String) (content : Bytes) : IO Unit := do
  let staged := path ++ ".part"
  IO.FS.writeBinFile staged ⟨content⟩
  IO.FS.rename staged path

/-- Writes the files that differ from what was fetched. -/
def keepChanges (before after : Storage) : IO Unit := do
  for (location, entry) in after.entries do
    if before.get? location ≠ some entry then
      if let .file content := entry then keepFile location.path content

/-- The paths that a request reads or writes. -/
def Request.paths : Request → List String
  | info input => [input]
  | metadata input _ => [input]
  | detectWater inputs output _ => output :: inputs

/-- The time, in the layout of timestamps. -/
def timestamp : IO String := do
  let now := Std.Time.PlainDateTime.ofWallTime (.ofNanoseconds (← Std.Time.Timestamp.now).toNanosecondsSinceUnixEpoch)
  let date : Date := ⟨now.year.toInt.toNat, now.month.toNat, now.day.toNat⟩
  let instant : Instant := ⟨date, now.hour.toNat, now.minute.toNat, now.second.toNat, now.nanosecond.toNat / 1000⟩
  return String.ofList instant.layout

/-- The name of a level, five characters wide. -/
def LogLevel.text : LogLevel → String
  | info => " INFO"
  | debug => "DEBUG"

/-- Prints an entry of the log after the time and its level. -/
def printEntry (entry : LogEntry) : IO Unit := do
  let time ← timestamp
  IO.println s!"{time} {entry.level.text} {entry.message}"

end SurfaceWater

def main (arguments : List String) : IO UInt32 := do
  let paths := match SurfaceWater.Invocation.read arguments with
    | .ok invocation => invocation.request.paths
    | .error _ => []
  let storage ← paths.foldlM SurfaceWater.fetchPath (.empty (← SurfaceWater.workingDirectory))
  let outcome := SurfaceWater.runProgram storage arguments
  SurfaceWater.keepChanges storage outcome.storage
  outcome.log.forM SurfaceWater.printEntry
  for line in outcome.output do IO.println line
  for line in outcome.errors do IO.eprintln line
  return outcome.exitCode.toUInt32
