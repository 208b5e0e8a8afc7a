import SurfaceWater.Detection.WaterDetection
import SurfaceWater.InputFiles

/-!
# Runs

From the files of a scene to a label file. Everything that can be refused about the inputs is
refused before the first pixel is read, and the label file appears only when it is complete. It
carries the georeference of the image unchanged and declares the value of pixels without data.
-/

namespace SurfaceWater

structure DetectionReport where
  image : String
  width : Nat
  height : Nat
  tiles : Nat
  /-- The height of the strips of the result. -/
  stripRows : Nat
  labels : LabelCounts
  metadata : SceneMetadata
  deriving DecidableEq

/-- A run that is ready to begin. -/
structure PreparedRun where
  image : String
  metadata : SceneMetadata
  reference : GeoReference
  detection : WaterDetection

namespace PreparedRun

/-- Finds and reads what a run needs besides the pixels. -/
def ofInputs (codec : ImageCodec) (machine : Machine) (storage : Storage) (inputs : List String)
    (params : DetectionParams) : Except Error PreparedRun := do
  params.validate
  let image ← InputFiles.find inputs InputFiles.imageExtension
  let metadata ← SceneMetadata.load storage inputs
  let reference ← GeoReference.load codec storage image
  let reader ← ImageReader.load codec storage image
  let detection ← WaterDetection.make machine reader metadata params.rule params.tileSize params.mode
  return ⟨image, metadata, reference, detection⟩

/-- Writes the labels. The answer is the tally of the run and the storage after it. -/
def write (run : PreparedRun) (codec : ImageCodec) (storage : Storage) (output : String) :
    (Except Error Unit × Storage) × LabelTally :=
  LabelFile.write codec storage output (run.detection.source codec) run.reference WaterLabel.noData.value
    (some run.detection.plan.stripRows) .zero

def report (run : PreparedRun) (tally : LabelTally) : DetectionReport where
  image := run.image
  width := run.detection.plan.width
  height := run.detection.plan.height
  tiles := run.detection.plan.tileCount
  stripRows := run.detection.plan.stripRows
  labels := tally.counts
  metadata := run.metadata

end PreparedRun

/-- Labels a scene, given by the paths of its image and its metadata, and writes the labels to a
file. The answer is the report or the error, and the storage after the run. -/
def detectWater (codec : ImageCodec) (machine : Machine) (storage : Storage) (inputs : List String) (output : String)
    (params : DetectionParams) : Except Error DetectionReport × Storage :=
  match PreparedRun.ofInputs codec machine storage inputs params with
  | .error error => (.error error, storage)
  | .ok run =>
    match run.write codec storage output with
    | ((.error error, after), _) => (.error error, after)
    | ((.ok (), after), tally) => (.ok (run.report tally), after)

end SurfaceWater
