import SurfaceWater.Image.Scene
import SurfaceWater.Metadata.Document

/-!
# Scene files

A made-up scene in a storage of its own: an image with the metadata file that belongs to it.
-/

namespace SurfaceWater

structure SceneFiles where
  image : SceneImage
  document : MetadataDocument

namespace SceneFiles

def imageName : String := "058012345010_01_P001_MUL.TIF"

def metadataName : String := "058012345010_01_P001_MUL.IMD"

/-- The paths of a scene as a run is given them. -/
def inputs : List String := [metadataName, imageName]

def home : Location := ["scene"]

def storage (scene : SceneFiles) : Storage :=
  ((Storage.empty home).addFile (home ++ [imageName]) scene.image.encode.toArray).addFile (home ++ [metadataName])
    (Text.encode scene.document.text).toArray

end SceneFiles

end SurfaceWater
