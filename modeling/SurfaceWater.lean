import SurfaceWater.Main
import SurfaceWater.Proofs.Calibration
import SurfaceWater.Proofs.Detection.PlanWords
import SurfaceWater.Proofs.Detection.Result
import SurfaceWater.Proofs.Detection.RuleBands
import SurfaceWater.Proofs.Detection.Stacking
import SurfaceWater.Proofs.Detection.Tally
import SurfaceWater.Proofs.Detection.Thresholds
import SurfaceWater.Proofs.GeoReference
import SurfaceWater.Proofs.GeoTransform
import SurfaceWater.Proofs.Image.LabelRoundTrip
import SurfaceWater.Proofs.Image.SceneReading
import SurfaceWater.Proofs.Image.WindowReading
import SurfaceWater.Proofs.JulianDay
import SurfaceWater.Proofs.Metadata.Acceptance
import SurfaceWater.Proofs.Metadata.AcquisitionTime
import SurfaceWater.Proofs.Metadata.DocumentHistory
import SurfaceWater.Proofs.Metadata.Faults
import SurfaceWater.Proofs.Metadata.Json
import SurfaceWater.Proofs.Metadata.Layout
import SurfaceWater.Proofs.Metadata.TimestampBytes
import SurfaceWater.Proofs.Raster.History
import SurfaceWater.Proofs.Tile.Partition
