import SurfaceWater.Band
import SurfaceWater.Instant
import SurfaceWater.Numeric.Notation
import SurfaceWater.Text.Quoted

/-!
# Faults of metadata

Why a metadata file is refused, and how that is said.
-/

namespace SurfaceWater

/-- The fields that a metadata file must have. -/
inductive MetadataField where
  | absCalFactor
  | effectiveBandwidth
  | meanSunElevation
  | firstLineTime
  deriving DecidableEq, Repr

/-- The name under which a field is recorded. -/
def MetadataField.key : MetadataField → String
  | absCalFactor => "absCalFactor"
  | effectiveBandwidth => "effectiveBandwidth"
  | meanSunElevation => "meanSunEl"
  | firstLineTime => "firstLineTime"

/-- Two coefficients for every band, the elevation of the Sun and the time. -/
def requiredFields : Nat := 2 * bandCount + 2

inductive MetadataFault where
  | notText (line : Nat)
  | outsideBandGroup (line : Nat) (field : MetadataField)
  | noValue (line : Nat) (field : MetadataField)
  | notANumber (line : Nat) (field : MetadataField) (text : List Char)
  | fieldCount (found : Nat)
  | incompleteBand (band : Band)
  | notPositive (field : MetadataField) (band : Band) (value : Binary32)
  | missing (field : MetadataField)
  | elevationOutOfRange (value : Binary32)
  | timestamp (text : List Char) (fault : TimestampFault)
  deriving DecidableEq

def TimestampFault.message : TimestampFault → String
  | wrongLength => "has the wrong length"
  | missingMark mark offset => s!"lacks '{mark}' at offset {offset}"
  | notDigits field => s!"has non-digit field {Text.quote field}"
  | noSuchDate => "is not a calendar date"
  | noSuchTime => "is not a time of day"

def MetadataFault.message : MetadataFault → String
  | notText line => s!"line {line}: not valid UTF-8"
  | outsideBandGroup line field => s!"line {line}: {field.key} outside of a band group"
  | noValue line field => s!"line {line}: {field.key} has no value"
  | notANumber line field text => s!"line {line}: {field.key} value {Text.quote text} is not a number"
  | fieldCount found => s!"found {found} of {requiredFields} required fields"
  | incompleteBand band => s!"band group {band.groupName} is incomplete"
  | notPositive field band value =>
    s!"{field.key} of {band.groupName} must be a positive number, got {NumberStyle.plain.write value}"
  | missing field => s!"{field.key} is missing"
  | elevationOutOfRange value =>
    s!"{MetadataField.meanSunElevation.key} = {NumberStyle.plain.write value} is outside (0, 90]"
  | timestamp text fault =>
    s!"timestamp {Text.quote (Instant.clean text)} {fault.message} (expected YYYY-MM-DDThh:mm:ss.ffffffZ)"

end SurfaceWater
