import SurfaceWater.Error
import SurfaceWater.Metadata.Parser

/-!
# Input files

The files of a scene are given as a list of paths and told apart by their extensions. The case of
ASCII letters does not matter, and the first path that fits is taken.
-/

namespace SurfaceWater

namespace InputFiles

/-- The name at the end of a path, unless the path ends in the directory above. -/
def fileName? (path : String) : Option String :=
  match (pathNames path).getLast? with
  | some name => if name = ".." then none else some name
  | none => none

/-- What follows the last dot of the file name. A dot that begins the name does not count. -/
def extension? (path : String) : Option (List Char) := do
  let name := (← fileName? path).toList
  let reversed := name.reverse
  let after := reversed.takeWhile (· ≠ '.')
  match reversed.dropWhile (· ≠ '.') with
  | '.' :: _ :: _ => some after.reverse
  | _ => none

def lowerAscii (c : Char) : Char := if c.isUpper then Char.ofNat (c.toNat + 32) else c

/-- The first path with an extension, which may be given with dots in front of it. -/
def find (paths : List String) (extension : String) : Except Error String :=
  let wanted := (extension.toList.dropWhile (· = '.')).map lowerAscii
  match paths.find? fun path => (extension? path).any fun ext => ext.map lowerAscii = wanted with
  | some path => .ok path
  | none => .error (.noInput extension)

def metadataExtension : String := "IMD"

def imageExtension : String := "TIF"

end InputFiles

namespace SceneMetadata

/-- Reads a metadata file. A fault in it is reported with its path. -/
def read (storage : Storage) (path : String) : Except Error SceneMetadata :=
  match storage.entry path with
  | .error fault => .error (.storage fault)
  | .ok .directory => .error (.storage .isADirectory)
  | .ok (.file content) =>
    match SceneMetadata.parse content.toList with
    | .ok metadata => .ok metadata
    | .error fault => .error (.metadata path fault)

/-- Reads the metadata file among the files of a scene. -/
def load (storage : Storage) (paths : List String) : Except Error SceneMetadata := do
  read storage (← InputFiles.find paths InputFiles.metadataExtension)

end SceneMetadata

end SurfaceWater
