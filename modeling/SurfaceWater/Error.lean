import SurfaceWater.Image.ColorModel
import SurfaceWater.Metadata.Fault
import SurfaceWater.Storage

/-!
# Errors

Everything that can stop the reading of a scene or the writing of its labels, and how it is
reported.
-/

namespace SurfaceWater

/-- Sample data that cannot be used. -/
inductive DataFault where
  | color (model : ColorModel)
  | planar
  | sampleFormat
  | bandCount (path : String) (bands : Nat)
  | tileBandCount (row col bands : Nat)
  deriving DecidableEq, Repr

/-- An image file that cannot be decoded or encoded. -/
inductive ImageFault where
  | cannotOpen (path : String)
  | noDimensions
  | noColorModel
  | noPlanarity
  | unreadableChunk (index : Nat)
  | chunkLength (index length expected : Nat)
  | encoder
  | notCreated
  | stripRows
  | tag (n : UInt16)
  | keyTag
  | textTag
  | noDataTag
  /-- A strip that the encoder does not take, given by its first row. -/
  | strip (row : Nat)
  | unfinished
  deriving DecidableEq, Repr

/-- A parameter that no run can have. -/
inductive ParameterFault where
  | tileSize
  | threads
  | rowsPerStrip
  | tooLarge (name : String) (value : Nat)
  | threshold (name : String) (value : Binary32)
  deriving DecidableEq

inductive Error where
  | storage (fault : StorageFault)
  | noInput (extension : String)
  | metadata (path : Option String) (fault : MetadataFault)
  | noGeoReference (path : String)
  | dimensions (width height : Nat)
  | outOfBounds (row col rows cols : Nat)
  | sizeMismatch (expectedRows expectedCols rows cols : Nat)
  | data (fault : DataFault)
  | parameter (fault : ParameterFault)
  | image (fault : ImageFault)
  | other (message : String)
  deriving DecidableEq

def DataFault.message : DataFault → String
  | color model => s!"{model.description} (expected unsigned 8 or 16-bit samples)"
  | planar => "band-interleaved (planar) samples; only pixel-interleaved images are supported"
  | sampleFormat => "only unsigned 8 or 16-bit samples are supported"
  | bandCount path bands => s!"{path} has {bands} bands, expected {SurfaceWater.bandCount}"
  | tileBandCount row col bands => s!"tile at ({row}, {col}) has {bands} bands, expected {SurfaceWater.bandCount}"

def ImageFault.message : ImageFault → String
  | cannotOpen path => s!"cannot open {path}"
  | noDimensions => "cannot read dimensions"
  | noColorModel => "cannot read color type"
  | noPlanarity => "cannot read planar configuration"
  | unreadableChunk index => s!"cannot read chunk {index}"
  | chunkLength index length expected => s!"chunk {index} has unexpected length {length} (expected {expected})"
  | encoder => "TIFF encoder error"
  | notCreated => "Cannot create TIFF image"
  | stripRows => "Cannot set rows per strip"
  | .tag n => s!"Cannot write tag {n.toNat}"
  | keyTag => "Cannot write geokey tag"
  | textTag => "Cannot write geo ascii tag"
  | noDataTag => "Cannot write nodata tag"
  | strip row => s!"Cannot write strip at row {row}"
  | unfinished => "Cannot finish TIFF image"

def ParameterFault.message : ParameterFault → String
  | tileSize => "tile_size = 0 (must be at least 1)"
  | threads => "threads = 0 (a thread pool needs at least one thread)"
  | rowsPerStrip => "rows_per_strip = 0 (must be at least 1)"
  | tooLarge name value => s!"{name} = {value} (does not fit a classic TIFF field)"
  | threshold name value => s!"{name} = {NumberStyle.plain.write value} (threshold must be a finite number)"

namespace Error

def message : Error → String
  | storage fault => s!"I/O error: {fault.message}"
  | noInput extension => s!"No input file with extension '{extension}' found in the provided paths"
  | metadata none fault => s!"Malformed metadata: {fault.message}"
  | metadata (some path) fault => s!"Malformed metadata: {path}: {fault.message}"
  | noGeoReference path => s!"Failed to read georeference from image {path}"
  | dimensions width height => s!"Invalid raster dimensions: {width}x{height}"
  | outOfBounds row col rows cols => s!"Index out of bounds: ({row}, {col}) in raster of size ({rows}, {cols})"
  | sizeMismatch er ec ar ac => s!"Raster size mismatch: expected ({er}, {ec}), got ({ar}, {ac})"
  | data fault => s!"Unsupported data type: {fault.message}"
  | parameter fault => s!"Invalid parameter: {fault.message}"
  | image fault => s!"TIFF error: {fault.message}"
  | other message => message

/-- The error and what caused it, as a report lists them. -/
def chain : Error → List String
  | storage fault => [(Error.storage fault).message, fault.message]
  | error => [error.message]

end Error

end SurfaceWater
