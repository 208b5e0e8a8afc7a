import SurfaceWater.CommandLine.Arguments
import SurfaceWater.CommandLine.Log
import SurfaceWater.Image.Uncompressed
import SurfaceWater.Metadata.Json

/-!
# Carrying out a request

What a request prints and what it leaves in the storage. A request that fails may have printed
something before, and ends with a report of the failure and its causes.
-/

namespace SurfaceWater

structure Outcome where
  exitCode : UInt8
  /-- What was said about the progress. -/
  log : List LogEntry
  output : List String
  errors : List String
  storage : Storage

/-! ### Failures -/

/-- Why a request failed: what was being done, and the error. -/
structure Failure where
  activity : String
  error : Error
  deriving DecidableEq

/-- A cause with a mark in front of its first line and blanks in front of the others. -/
def markedLines (mark : String) (cause : String) : List String :=
  match cause.splitOn "\n" with
  | [] => []
  | first :: rest => (mark ++ first) :: rest.map (alignRight mark.length "" ++ ·)

/-- The report of a failure. Several causes are numbered. -/
def Failure.lines (failure : Failure) : List String :=
  let causes := match failure.error.chain with
    | [cause] => markedLines "    " cause
    | causes => causes.zipIdx.flatMap fun (cause, i) => markedLines (alignRight 5 (toString i) ++ ": ") cause
  [s!"Error: {failure.activity}", "", "Caused by:"] ++ causes

/-! ### What is printed -/

def layoutLines (path : String) (l : ImageLayout) : List String :=
  [s!"File: {path}", s!"Dimensions: {l.width} x {l.height} ({l.width * l.height} cells)", s!"Bands: {l.bands}",
    (if l.isStriped then "Strip size" else "Tile size") ++ s!": {l.chunkWidth} x {l.chunkHeight}"] ++
    (l.noData.map fun value => s!"NoData: {NumberStyle.plain.write value}").toList

def boundsLine (b : Bounds Binary64) : String :=
  s!"Bounds: ({b.minX.writeFixed 6}, {b.minY.writeFixed 6}) - ({b.maxX.writeFixed 6}, {b.maxY.writeFixed 6})"

def transformLines (l : ImageLayout) (t : GeoTransform Binary64) : List String :=
  [s!"Cell size: {NumberStyle.plain.write t.cellSize}"] ++ (if t.isNorthUp then [] else ["Rotated: yes"]) ++
    [boundsLine (t.bounds l.width l.height)]

def referenceLines (l : ImageLayout) (g : GeoReference) : List String :=
  (g.crs?.map fun crs => s!"CRS: {crs.identifier}").toList ++ ((g.geoTransform?.map (transformLines l)).getD [])

/-- A row of the table of coefficients. -/
def coefficientLine (name factor bandwidth : String) : String :=
  s!"  {alignLeft 8 name} {alignRight 14 factor} {alignRight 19 bandwidth}"

def bandLine (m : SceneMetadata) (band : Band) : String :=
  let c := m.coefficients.get band
  coefficientLine band.groupName (c.absCalFactor.writeScientific 6) (c.effectiveBandwidth.writeScientific 6)

def metadataLines (path : String) (m : SceneMetadata) : List String :=
  [s!"File: {path}", "", "Calibration:",
    coefficientLine "Band" MetadataField.absCalFactor.key MetadataField.effectiveBandwidth.key] ++
    Band.all.map (bandLine m) ++
    ["", "Geometry:", s!"  First line time: {m.geometry.firstLineTime}",
      s!"  Mean sun elevation: {m.geometry.meanSunElevation.writeFixed 4}°",
      s!"  Earth-Sun distance: {m.geometry.earthSunDistance.writeFixed 6} AU"]

def countLine (name : String) (counts : LabelCounts) (count : Nat) : String :=
  s!"  {name}: {count} ({(counts.percent count).writeFixed 1}%)"

def reportLines (output : String) (r : DetectionReport) : List String :=
  [s!"Scene: {r.image} ({r.width} x {r.height})", s!"  Tiles: {r.tiles} of {r.stripRows} px",
    s!"  Earth-Sun distance: {r.metadata.geometry.earthSunDistance.writeFixed 6} AU, " ++
      s!"sun elevation {r.metadata.geometry.meanSunElevation.writeFixed 2}°",
    countLine "Water" r.labels r.labels.water, countLine "Land" r.labels r.labels.land,
    countLine "NoData" r.labels r.labels.noData, s!"Water mask saved to: {output}"]

/-! ### Requests -/

structure Execution where
  log : List LogEntry
  output : List String
  /-- The failure that ended it, if any. -/
  failure : Option Failure
  storage : Storage

namespace Request

def perform (storage : Storage) : Request → Execution
  | info input =>
    match (ImageCodec.uncompressed.load storage input).bind ImageLayout.ofImage with
    | .error error => ⟨[], [], some ⟨"Failed to read raster", error⟩, storage⟩
    | .ok layout =>
      match GeoReference.load .uncompressed storage input with
      | .ok reference => ⟨[], layoutLines input layout ++ referenceLines layout reference, none, storage⟩
      | .error (.noGeoReference _) => ⟨[], layoutLines input layout ++ ["Georeference: none"], none, storage⟩
      | .error error => ⟨[], layoutLines input layout, some ⟨"Failed to read georeference", error⟩, storage⟩
  | metadata input json =>
    match SceneMetadata.read storage input with
    | .error error => ⟨[], [], some ⟨"Failed to read metadata", error⟩, storage⟩
    | .ok m =>
      let lines := if json then (m.writeJson .indented).splitOn "\n" else metadataLines input m
      ⟨LogEntry.ofMetadata input m, lines, none, storage⟩
  | detectWater inputs output params =>
    let (result, after) := SurfaceWater.detectWater .uncompressed .standard storage inputs output params
    let log := runLog .uncompressed .standard storage inputs output params result
    match result with
    | .error error => ⟨log, [], some ⟨"Water detection failed", error⟩, after⟩
    | .ok report => ⟨log, reportLines output report, none, after⟩

end Request

/-! ### The program -/

def programName : String := "aquamask"

def versionText : String := "0.1.0"

def helpLines : List String :=
  ["Water detection for multispectral satellite imagery", "", s!"Usage: {programName} [-v] COMMAND", "", "Commands:",
    "  info INPUT               Show information about a raster file",
    "  metadata INPUT [--json]  Show the calibration metadata of an .IMD file",
    "  detect-water INPUTS... -o OUTPUT [-t SIZE] [-j THREADS] [-r ndwi|ndwi-ndvi] [--threshold NUMBER]",
    "                           Classify a scene into land, water and no-data"]

/-- Runs the program with the given arguments. -/
def runProgram (storage : Storage) (arguments : List String) : Outcome :=
  match Invocation.read arguments with
  | .error .help => ⟨0, [], helpLines, [], storage⟩
  | .error .version => ⟨0, [], [s!"{programName} {versionText}"], [], storage⟩
  | .error (.fault fault) => ⟨2, [], [], s!"error: {fault.message}" :: "" :: helpLines, storage⟩
  | .ok ⟨request, verbose⟩ =>
    let done := request.perform storage
    let log := done.log.filter (LogEntry.isShown verbose)
    match done.failure with
    | none => ⟨0, log, done.output, [], done.storage⟩
    | some failure => ⟨1, log, done.output, failure.lines, done.storage⟩

end SurfaceWater
