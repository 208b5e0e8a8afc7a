import SurfaceWater.Ephemeris
import SurfaceWater.Metadata.Basic
import SurfaceWater.Metadata.Fault
import SurfaceWater.Text.Lines

/-!
# Reading metadata

A metadata file is a sequence of lines. A line that names a group opens it, a line that names a
required field gives its value after the first equals sign, and all other lines say nothing. A line
that names several of these is read as the first of them in the order of `LineKind.ofLine`.
Coefficients belong to the band group opened last, and every required field must be given as often
as a complete file gives it.
-/

namespace SurfaceWater

inductive LineKind where
  | group
  | field (field : MetadataField)
  | other
  deriving DecidableEq, Repr

/-- A text occurs in another. -/
def occursIn (part : List Char) : List Char → Bool
  | [] => part.isEmpty
  | c :: rest => part.isPrefixOf (c :: rest) || occursIn part rest

namespace LineKind

def groupMark : String := "BEGIN_GROUP"

/-- The marks that give a line its kind, the first of them before the others. -/
def marks : List (String × LineKind) :=
  (groupMark, .group) :: [MetadataField.absCalFactor, .effectiveBandwidth, .meanSunElevation, .firstLineTime].map
    fun f => (f.key, .field f)

def ofLine (line : List Char) : LineKind :=
  match marks.find? fun (mark, _) => occursIn mark.toList line with
  | some (_, kind) => kind
  | none => .other

end LineKind

/-- The text after the first equals sign of a line. -/
def valueText? (line : List Char) : Option (List Char) :=
  match line.dropWhile (· ≠ '=') with
  | [] => none
  | _ :: value => some value

/-- What has been read up to a line. -/
structure MetadataScan where
  band : Option Band
  absCalFactor : BandVector (Option Binary32)
  effectiveBandwidth : BandVector (Option Binary32)
  meanSunElevation : Option Binary32
  firstLineTime : Option (List Char)
  found : Nat

namespace MetadataScan

def start : MetadataScan where
  band := none
  absCalFactor := Vector.replicate bandCount none
  effectiveBandwidth := Vector.replicate bandCount none
  meanSunElevation := none
  firstLineTime := none
  found := 0

/-- The number that a line gives for a field. -/
def number (lineNumber : Nat) (field : MetadataField) (line : List Char) : Except MetadataFault Binary32 :=
  match (valueText? line).map Instant.clean with
  | none => .error (.noValue lineNumber field)
  | some text =>
    match Numeral.read? text with
    | none => .error (.notANumber lineNumber field text)
    | some numeral => .ok numeral.toBinary

/-- The band that a coefficient belongs to. -/
def currentBand (scan : MetadataScan) (lineNumber : Nat) (field : MetadataField) : Except MetadataFault Band :=
  match scan.band with
  | none => .error (.outsideBandGroup lineNumber field)
  | some band => .ok band

def line (scan : MetadataScan) (lineNumber : Nat) (text : List Char) : Except MetadataFault MetadataScan := do
  match LineKind.ofLine text with
  | .group =>
    let name := Text.trim ((valueText? text).getD [])
    return { scan with band := Band.ofGroupName? (String.ofList name) }
  | .field .absCalFactor =>
    let band ← scan.currentBand lineNumber .absCalFactor
    let value ← number lineNumber .absCalFactor text
    return { scan with absCalFactor := scan.absCalFactor.set band (some value), found := scan.found + 1 }
  | .field .effectiveBandwidth =>
    let band ← scan.currentBand lineNumber .effectiveBandwidth
    let value ← number lineNumber .effectiveBandwidth text
    return { scan with effectiveBandwidth := scan.effectiveBandwidth.set band (some value), found := scan.found + 1 }
  | .field .meanSunElevation =>
    let value ← number lineNumber .meanSunElevation text
    return { scan with meanSunElevation := some value, found := scan.found + 1 }
  | .field .firstLineTime =>
    match valueText? text with
    | none => throw (.noValue lineNumber .firstLineTime)
    | some value => return { scan with firstLineTime := some (Instant.clean value), found := scan.found + 1 }
  | .other => return scan

/-- Reads the lines of a file, the first of which has the given number. -/
def lines : Nat → MetadataScan → List (List UInt8) → Except MetadataFault MetadataScan
  | _, scan, [] => .ok scan
  | lineNumber, scan, bytes :: rest =>
    match Text.decode? bytes with
    | none => .error (.notText lineNumber)
    | some text => do
      let next ← scan.line lineNumber text.toList
      lines (lineNumber + 1) next rest

/-- A coefficient must be finite and above zero. -/
def positive (field : MetadataField) (band : Band) (value : Binary32) : Except MetadataFault Unit :=
  if value.isFinite && decide (0 < value) then .ok () else .error (.notPositive field band value)

/-- The coefficients that were read for a band. -/
def bandCoefficients (scan : MetadataScan) (band : Band) : Except MetadataFault BandCoefficients :=
  match scan.absCalFactor.get band, scan.effectiveBandwidth.get band with
  | some factor, some bandwidth => do
    positive .absCalFactor band factor
    positive .effectiveBandwidth band bandwidth
    return ⟨factor, bandwidth⟩
  | _, _ => .error (.incompleteBand band)

/-- The coefficients of all bands. Of several faults, that of the first band counts. -/
def coefficients (scan : MetadataScan) : Except MetadataFault (BandVector BandCoefficients) := do
  let coastal ← scan.bandCoefficients .coastal
  let blue ← scan.bandCoefficients .blue
  let green ← scan.bandCoefficients .green
  let yellow ← scan.bandCoefficients .yellow
  let red ← scan.bandCoefficients .red
  let redEdge ← scan.bandCoefficients .redEdge
  let nir1 ← scan.bandCoefficients .nir1
  let nir2 ← scan.bandCoefficients .nir2
  return #v[coastal, blue, green, yellow, red, redEdge, nir1, nir2]

/-- The elevation of the Sun must be above the horizon and at most vertical. -/
def elevation (scan : MetadataScan) : Except MetadataFault Binary32 :=
  match scan.meanSunElevation with
  | none => .error (.missing .meanSunElevation)
  | some value => if 0 < value ∧ value ≤ 90 then .ok value else .error (.elevationOutOfRange value)

/-- The metadata that the lines of a file add up to. -/
def finish (scan : MetadataScan) : Except MetadataFault SceneMetadata := do
  if scan.found ≠ requiredFields then throw (.fieldCount scan.found)
  let coefficients ← scan.coefficients
  let elevation ← scan.elevation
  match scan.firstLineTime with
  | none => throw (.missing .firstLineTime)
  | some text =>
    match Instant.read text with
    | .error fault => throw (.timestamp text fault)
    | .ok instant => return ⟨coefficients, ⟨elevation, instant.earthSunDistance, String.ofList text⟩⟩

end MetadataScan

def SceneMetadata.parse (bytes : List UInt8) : Except MetadataFault SceneMetadata := do
  let scan ← MetadataScan.lines 1 .start (Text.lines bytes)
  scan.finish

end SurfaceWater
