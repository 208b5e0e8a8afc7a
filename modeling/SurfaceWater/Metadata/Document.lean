import SurfaceWater.Metadata.Parser

/-!
# Metadata documents

The text of a metadata file, put together from its parts. A document has the group of every band,
the group of the image, a few fields that say nothing about calibration, and any further groups.
-/

namespace SurfaceWater

structure MetadataDocument where
  /-- The text of each calibration factor. -/
  absCalFactor : BandVector String
  /-- The text of each bandwidth. -/
  effectiveBandwidth : BandVector String
  meanSunElevation : Option String
  firstLineTime : Option String
  omittedGroups : List String
  /-- The name and the lines of each further group. -/
  extraGroups : List (String × String)
  deriving DecidableEq

namespace MetadataDocument

/-! ### Parts -/

def standardTime : String := "2016-10-23T18:44:52.145617Z"

/-- A document with the same coefficients for all bands and the Sun in the zenith. -/
def uniform (factor bandwidth : Binary32) : MetadataDocument where
  absCalFactor := Vector.replicate bandCount (NumberStyle.scientific.write factor)
  effectiveBandwidth := Vector.replicate bandCount (NumberStyle.scientific.write bandwidth)
  meanSunElevation := some "90.0"
  firstLineTime := some standardTime
  omittedGroups := []
  extraGroups := []

def standard : MetadataDocument := uniform 1 1

/-- The document with other coefficients for a band. -/
def withBand (d : MetadataDocument) (band : Band) (factor bandwidth : Binary32) : MetadataDocument :=
  { d with
    absCalFactor := d.absCalFactor.set band (NumberStyle.scientific.write factor)
    effectiveBandwidth := d.effectiveBandwidth.set band (NumberStyle.scientific.write bandwidth) }

/-- The document with any text for the calibration factor of a band. -/
def withFactorText (d : MetadataDocument) (band : Band) (text : String) : MetadataDocument :=
  { d with absCalFactor := d.absCalFactor.set band text }

def withElevation (d : MetadataDocument) (text : Option String) : MetadataDocument :=
  { d with meanSunElevation := text }

def withTime (d : MetadataDocument) (text : Option String) : MetadataDocument :=
  { d with firstLineTime := text }

/-- The document without the groups of a name, if a band has it. -/
def omitGroup (d : MetadataDocument) (name : String) : MetadataDocument :=
  { d with omittedGroups := d.omittedGroups ++ [name] }

/-- The document with a further group at its end. -/
def addGroup (d : MetadataDocument) (name body : String) : MetadataDocument :=
  { d with extraGroups := d.extraGroups ++ [(name, body)] }

/-- The coefficients of a product of the WorldView-3 satellite. -/
def worldView3Coefficients : Band → Binary32 × Binary32
  | .coastal => (9.295654e-03, 4.730000e-02)
  | .blue => (1.260425e-02, 5.430000e-02)
  | .green => (9.713071e-03, 6.300000e-02)
  | .yellow => (5.101088e-03, 3.740000e-02)
  | .red => (1.103623e-02, 5.740000e-02)
  | .redEdge => (4.539619e-03, 3.930000e-02)
  | .nir1 => (1.224380e-02, 9.890000e-02)
  | .nir2 => (9.042234e-03, 9.960000e-02)

def worldView3 : MetadataDocument :=
  let document := Band.all.foldl
    (fun d band => d.withBand band (worldView3Coefficients band).1 (worldView3Coefficients band).2) standard
  document.withElevation "37.9"

/-! ### Text -/

def header : List String :=
  ["version = \"28.4\";", "generationTime = 2016-10-24T01:13:19.000000Z;",
    "productOrderId = \"058012345010_01_P001\";", "productCatalogId = \"A0100100F5C1A000\";",
    "imageDescriptor = \"ORStandard2A\";", "bandId = \"Multi\";", "numRows = 2;", "numColumns = 2;"]

def groupLines (name : String) (body : List String) : List String :=
  s!"BEGIN_GROUP = {name}" :: body ++ [s!"END_GROUP = {name}"]

def bandLines (d : MetadataDocument) (band : Band) : List String :=
  if d.omittedGroups.contains band.groupName then []
  else groupLines band.groupName ["\tULLon = -122.39470000;", "\tULLat =   37.79530000;",
    s!"\tabsCalFactor = {d.absCalFactor.get band};", s!"\teffectiveBandwidth = {d.effectiveBandwidth.get band};"]

def imageLines (d : MetadataDocument) : List String :=
  groupLines "IMAGE_1" (["\tsatId = \"WV03\";", "\tmode = \"FullSwath\";"] ++
    (d.firstLineTime.map fun time => s!"\tfirstLineTime = {time};").toList ++
    ["\tavgLineRate = 3374.00;", "\tmeanSunAz = 160.1;"] ++
    (d.meanSunElevation.map fun elevation => s!"\tmeanSunEl = {elevation};").toList ++
    ["\tmeanSatAz = 220.5;", "\tmeanSatEl = 68.2;"])

/-- The lines of a group body as one text without the line feed at its end, if it has one. -/
def dropFinalFeed (body : String) : String :=
  let chars := body.toList
  if chars.getLast? = some '\n' then String.ofList chars.dropLast else body

/-- The lines of a document. The text in a further group may span several. -/
def textLines (d : MetadataDocument) : List String :=
  header ++ Band.all.flatMap d.bandLines ++ d.imageLines ++
    d.extraGroups.flatMap (fun (name, body) => groupLines name [dropFinalFeed body]) ++ ["END;"]

def text (d : MetadataDocument) : String := String.join (d.textLines.map fun line => line ++ "\n")

end MetadataDocument

end SurfaceWater
