import ColourPipeline.Image.Basic

namespace ColourPipeline

inductive ColourType where
  | l8
  | la8
  | rgb8
  | rgba8
  | l16
  | la16
  | rgb16
  | rgba16
  | rgb32F
  | rgba32F
deriving DecidableEq, Repr

def BitDepth.ofColour : ColourType → BitDepth
  | .l16 | .la16 | .rgb16 | .rgba16 => .u16
  | .rgb32F | .rgba32F => .f32
  | _ => .u8

/-- An image as a decoder hands it over: how its samples were stored, its size, and its pixels in
rows, by then as fractions with alpha. -/
structure Decoded where
  colour : ColourType
  width : Nat
  height : Nat
  pixels : List Pixel

abbrev Decoder := Bytes → Option Decoded

namespace Image

def ofDecoded (d : Decoded) : Image :=
  ⟨d.width, d.height, { bitDepth := .ofColour d.colour }, d.pixels.toArray⟩

def decode (decoder : Decoder) (bs : Bytes) : Except PipelineError Image :=
  match decoder bs with
  | some d => .ok (ofDecoded d)
  | none => .error .image

end Image

end ColourPipeline
