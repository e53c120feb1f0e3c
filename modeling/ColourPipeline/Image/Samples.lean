import ColourPipeline.Image.Decoded

namespace ColourPipeline

inductive ColourModel where
  | grey
  | greyAlpha
  | rgb
  | rgbAlpha
deriving DecidableEq, Repr

namespace ColourModel

def channels : ColourModel → Nat
  | .grey => 1
  | .greyAlpha => 2
  | .rgb => 3
  | .rgbAlpha => 4

def isGrey : ColourModel → Bool
  | .grey | .greyAlpha => true
  | .rgb | .rgbAlpha => false

def withAlpha : ColourModel → ColourModel
  | .grey | .greyAlpha => .greyAlpha
  | .rgb | .rgbAlpha => .rgbAlpha

def hasAlpha (m : ColourModel) : Bool := m.withAlpha == m

def pixel? : ColourModel → List Float32 → Option Pixel
  | .grey, [l] => some ⟨l, l, l, 1⟩
  | .greyAlpha, [l, a] => some ⟨l, l, l, a⟩
  | .rgb, [r, g, b] => some ⟨r, g, b, 1⟩
  | .rgbAlpha, [r, g, b, a] => some ⟨r, g, b, a⟩
  | _, _ => none

def fraction (m : ColourModel) (max n : Nat) : Float32 :=
  if m.isGrey then Float32.ofNat n * (1 / Float32.ofNat max)
  else Float32.ofNat n / Float32.ofNat max

def pixels? (m : ColourModel) : Nat → List Float32 → Option (List Pixel)
  | _, [] => some []
  | 0, _ :: _ => none
  | fuel + 1, samples => do
    let p ← m.pixel? (samples.take m.channels)
    let ps ← m.pixels? fuel (samples.drop m.channels)
    pure (p :: ps)

end ColourModel

namespace ColourType

def model : ColourType → ColourModel
  | .l8 | .l16 => .grey
  | .la8 | .la16 => .greyAlpha
  | .rgb8 | .rgb16 | .rgb32F => .rgb
  | .rgba8 | .rgba16 | .rgba32F => .rgbAlpha

def max (c : ColourType) : Nat :=
  match BitDepth.ofColour c with
  | .u16 => Width.short - 1
  | _ => Width.byte - 1

end ColourType

namespace Decoded

def ofFractions? (colour : ColourType) (width height : Nat) (samples : List Float32) :
    Option Decoded := do
  let pixels ← colour.model.pixels? samples.length samples
  guard (pixels.length = width * height)
  pure ⟨colour, width, height, pixels⟩

def ofSamples? (colour : ColourType) (width height : Nat) (samples : List Nat) : Option Decoded :=
  ofFractions? colour width height (samples.map (colour.model.fraction colour.max))

end Decoded

end ColourPipeline
