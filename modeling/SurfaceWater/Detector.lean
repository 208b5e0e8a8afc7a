import SurfaceWater.Calibration
import SurfaceWater.Rule

/-!
# Detecting water in a pixel

Calibration and classification as one function from digital numbers to a label.
-/

namespace SurfaceWater

structure WaterDetector (C : Type := WaterRule) where
  calibrator : Calibrator
  classifier : C
  deriving DecidableEq

namespace WaterDetector

variable {C : Type}

def ofMetadata (m : SceneMetadata) (classifier : C) : WaterDetector C := ⟨.ofMetadata m, classifier⟩

def detect [PixelClassifier C] (d : WaterDetector C) (pixel : RawPixel) : WaterLabel :=
  PixelClassifier.classify d.classifier (d.calibrator.reflectance pixel)

end WaterDetector

end SurfaceWater
