import OpenCam.Jvm.Text

/-!
`FilterRepository.kt`: the table of filters that the phone advertises and
creates by name.
-/

namespace OpenCam.Android

open Jvm

namespace FilterRepository

inductive Category where
  | none
  | correction
  | effect
  | distortion
  | artistic
deriving DecidableEq, Repr

def Category.ordinal : Category → Nat
  | .none => 0
  | .correction => 1
  | .effect => 2
  | .distortion => 3
  | .artistic => 4

/-- The renderer classes of the table, and the two that `Streamer` flips with. -/
inductive FilterClass where
  | noFilterRender
  | brightnessFilterRender | contrastFilterRender | exposureFilterRender | gammaFilterRender
  | saturationFilterRender | temperatureFilterRender | sharpnessFilterRender
  | greyScaleFilterRender | sepiaFilterRender | negativeFilterRender | earlyBirdFilterRender
  | image70sFilterRender | lamoishFilterRender
  | cartoonFilterRender | duotoneFilterRender | halftoneLinesFilterRender
  | pixelatedFilterRender | polygonizationFilterRender | rainbowFilterRender
  | moneyFilterRender | zebraFilterRender | edgeDetectionFilterRender
  | blurFilterRender | glitchFilterRender | noiseFilterRender | analogTVFilterRender
  | swirlFilterRender | rippleFilterRender | fireFilterRender | snowFilterRender
  | verticalFlipFilterRender | horizontalFlipFilterRender
deriving DecidableEq, Repr

structure FilterInfo where
  name : JString
  filterClass : FilterClass
  category : Category
deriving DecidableEq, Repr

def filters : List FilterInfo := [
  ⟨literal "None", .noFilterRender, .none⟩,
  ⟨literal "Brightness", .brightnessFilterRender, .correction⟩,
  ⟨literal "Contrast", .contrastFilterRender, .correction⟩,
  ⟨literal "Exposure", .exposureFilterRender, .correction⟩,
  ⟨literal "Gamma", .gammaFilterRender, .correction⟩,
  ⟨literal "Saturation", .saturationFilterRender, .correction⟩,
  ⟨literal "Temperature", .temperatureFilterRender, .correction⟩,
  ⟨literal "Sharpness", .sharpnessFilterRender, .correction⟩,
  ⟨literal "Grey Scale", .greyScaleFilterRender, .effect⟩,
  ⟨literal "Sepia", .sepiaFilterRender, .effect⟩,
  ⟨literal "Negative", .negativeFilterRender, .effect⟩,
  ⟨literal "Early Bird", .earlyBirdFilterRender, .effect⟩,
  ⟨literal "70s Style", .image70sFilterRender, .effect⟩,
  ⟨literal "Lamoish", .lamoishFilterRender, .effect⟩,
  ⟨literal "Cartoon", .cartoonFilterRender, .artistic⟩,
  ⟨literal "Duotone", .duotoneFilterRender, .artistic⟩,
  ⟨literal "Halftone Lines", .halftoneLinesFilterRender, .artistic⟩,
  ⟨literal "Pixelated", .pixelatedFilterRender, .artistic⟩,
  ⟨literal "Polygonization", .polygonizationFilterRender, .artistic⟩,
  ⟨literal "Rainbow", .rainbowFilterRender, .artistic⟩,
  ⟨literal "Money", .moneyFilterRender, .artistic⟩,
  ⟨literal "Zebra", .zebraFilterRender, .artistic⟩,
  ⟨literal "Edge Detection", .edgeDetectionFilterRender, .artistic⟩,
  ⟨literal "Blur", .blurFilterRender, .distortion⟩,
  ⟨literal "Glitch", .glitchFilterRender, .distortion⟩,
  ⟨literal "Noise", .noiseFilterRender, .distortion⟩,
  ⟨literal "Analog TV", .analogTVFilterRender, .distortion⟩,
  ⟨literal "Swirl", .swirlFilterRender, .distortion⟩,
  ⟨literal "Ripple", .rippleFilterRender, .distortion⟩,
  ⟨literal "Fire", .fireFilterRender, .distortion⟩,
  ⟨literal "Snow", .snowFilterRender, .distortion⟩]

/-- `filters.find { it.name.equals(filterName, ignoreCase = true) }`. -/
def find (filterName : JString) : Option FilterInfo :=
  filters.find? fun info => equalsIgnoreCase info.name filterName

def getCategory (filterName : JString) : Category :=
  match find filterName with
  | some info => info.category
  | none => .none

def getClass (filterName : JString) : Option FilterClass :=
  (find filterName).map FilterInfo.filterClass

/-- `create(filterName)`. The constructor is called by reflection; `newInstance`
says for which classes that call returns, and the others yield `null`. -/
def create (newInstance : FilterClass → Bool) (filterName : JString) : Option FilterClass :=
  match find filterName with
  | some info => if newInstance info.filterClass then some info.filterClass else none
  | none => none

end FilterRepository

end OpenCam.Android
