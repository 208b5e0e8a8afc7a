import SurfaceWater.Detection.Run

/-!
# Log

What the program says about its progress, before its output. An entry is written after the time and
its level, and goes on over further lines where a path in it does.
-/

namespace SurfaceWater

inductive LogLevel where
  | info
  /-- Only said where it is asked for. -/
  | debug
  deriving DecidableEq, Repr

structure LogEntry where
  level : LogLevel
  message : String
  deriving DecidableEq, Repr

/-! ### Descriptions -/

/-- A value that may be absent, as the log describes it. -/
def describeOption {α : Type} (describe : α → String) : Option α → String
  | none => "None"
  | some value => s!"Some({describe value})"

/-- A list, as the log describes it. -/
def describeList {α : Type} (describe : α → String) (items : List α) : String :=
  "[" ++ ", ".intercalate (items.map describe) ++ "]"

/-- A georeference, as the log describes it. -/
def GeoReference.description (g : GeoReference) : String :=
  let doubles := describeOption (describeList fun x : Binary64 => NumberStyle.described.write x)
  let shorts := describeOption (describeList fun n : UInt16 => toString n.toNat)
  s!"GeoReference \x7b pixel_scale: {doubles g.pixelScale}, tiepoints: {doubles g.tiepoints}, " ++
    s!"transformation: {doubles g.transformation}, geo_keys: {shorts g.geoKeys}, " ++
    s!"geo_doubles: {doubles g.geoDoubles}, " ++
    s!"geo_ascii: {describeOption (fun text => Text.quote text.toList) g.geoAscii} \x7d"

namespace LogEntry

def info (message : String) : LogEntry := ⟨.info, message⟩

def debug (message : String) : LogEntry := ⟨.debug, message⟩

/-- An entry is shown unless it is for debugging and no one asked for that. -/
def isShown (verbose : Bool) (entry : LogEntry) : Bool := verbose || entry.level = .info

/-! ### Entries -/

def ofParams (machine : Machine) (params : DetectionParams) : LogEntry :=
  info (s!"Rule: {params.rule.description}, tile size {params.tileSize}, " ++
    s!"{params.mode.threads machine} of {machine.cores} threads")

def ofMetadata (path : String) (m : SceneMetadata) : List LogEntry :=
  let band (band : Band) : LogEntry :=
    let c := m.coefficients.get band
    debug (s!"  {alignLeft 8 band.groupName} absCalFactor={NumberStyle.scientific.write c.absCalFactor} " ++
      s!"effectiveBandwidth={NumberStyle.scientific.write c.effectiveBandwidth}")
  debug s!"Metadata from {path}" :: Band.all.map band ++
    [debug (s!"  meanSunEl={NumberStyle.plain.write m.geometry.meanSunElevation} " ++
      s!"earthSunDistance={m.geometry.earthSunDistance.writeFixed 6} firstLineTime={m.geometry.firstLineTime}")]

def ofReader (r : ImageReader) : LogEntry :=
  let l := r.layout
  debug (s!"Opened {r.path}: {l.width} x {l.height} x {l.bands} bands, " ++
    s!"chunks {l.chunkWidth} x {l.chunkHeight}")

def ofReference (path : String) (g : GeoReference) : LogEntry := debug s!"Georeference of {path}: {g.description}"

def ofRun (run : PreparedRun) : LogEntry :=
  let plan := run.detection.plan
  info (s!"Detecting water in {run.image} ({plan.width} x {plan.height}, {plan.tileCount} tiles of " ++
    s!"{plan.tileRows} x {plan.tileCols}, {run.detection.workers} threads)")

def ofLabels (output : String) (labels : LabelCounts) : LogEntry :=
  info s!"Wrote {output} ({labels.water} water, {labels.land} land, {labels.noData} no-data)"

end LogEntry

/-! ### Progress -/

def say (entries : List LogEntry) : ExceptT Error (StateM (List LogEntry)) Unit := modify (· ++ entries)

section

variable (codec : ImageCodec) (machine : Machine)

/-- Says how far the preparation of a run gets. -/
def sayPreparation (storage : Storage) (inputs : List String) (params : DetectionParams) :
    ExceptT Error (StateM (List LogEntry)) Unit := do
  params.validate
  let image ← InputFiles.find inputs InputFiles.imageExtension
  let path ← InputFiles.find inputs InputFiles.metadataExtension
  say (LogEntry.ofMetadata path (← SceneMetadata.read storage path))
  let reference ← GeoReference.load codec storage image
  say [.ofReader (← ImageReader.load codec storage image), .ofReference image reference]
  say [.ofRun (← PreparedRun.ofInputs codec machine storage inputs params)]

/-- The log of a run that ended with a report or an error. -/
def runLog (storage : Storage) (inputs : List String) (output : String) (params : DetectionParams)
    (result : Except Error DetectionReport) : List LogEntry :=
  let (_, preparation) := (sayPreparation codec machine storage inputs params).run []
  let ending := match result with
    | .ok report => [LogEntry.ofLabels output report.labels]
    | .error _ => []
  LogEntry.ofParams machine params :: preparation ++ ending

end

end SurfaceWater
