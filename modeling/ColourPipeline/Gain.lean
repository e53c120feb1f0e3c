import ColourPipeline.Image.Array
import ColourPipeline.Options.Set

namespace ColourPipeline

structure Gain where
  r : Float32
  g : Float32
  b : Float32
deriving DecidableEq

namespace Gain

def ofOptions (s : OptionSet) : Gain :=
  let uniform := Decimal.toSingle ((s.double? "gain").getD 1)
  let channel (key : String) := ((s.double? key).map Decimal.toSingle).getD uniform
  ⟨channel "gain_r", channel "gain_g", channel "gain_b"⟩

def isIdentity (k : Gain) : Bool := k.r == 1 && k.g == 1 && k.b == 1

def scale (k : Gain) (p : Pixel) : Pixel :=
  { p with r := p.r * k.r, g := p.g * k.g, b := p.b * k.b }

def apply (k : Gain) (a : PixelArray) : PixelArray :=
  if k.isIdentity then a else a.map k.scale

end Gain

end ColourPipeline
