import ColourPipeline.Image.Png.Colours
import ColourPipeline.Image.Png.Data

/-! A decoder for images that are stored without filters and without codes. -/

namespace ColourPipeline

namespace Png

def signature : Bytes := [0x89, 0x50, 0x4e, 0x47, 0x0d, 0x0a, 0x1a, 0x0a]

def depth? : Nat → Option BitDepth
  | 8 => some .u8
  | 16 => some .u16
  | _ => none

def colourType (depth : BitDepth) (m : ColourModel) : ColourType :=
  match depth, m with
  | .u16, .grey => .l16
  | .u16, .greyAlpha => .la16
  | .u16, .rgb => .rgb16
  | .u16, .rgbAlpha => .rgba16
  | _, .grey => .l8
  | _, .greyAlpha => .la8
  | _, .rgb => .rgb8
  | _, .rgbAlpha => .rgba8

def decoded? : Decoder := fun bs => do
  guard (bs.take 8 = signature)
  let (header, rest) ← chunk? (bs.drop 8)
  guard (header.type = headerType ∧ header.sound ∧ header.data.length = 13)
  let width := Bytes.number (header.data.take 4)
  let height := Bytes.number (Bytes.slice header.data 4 4)
  guard (width ≠ 0 ∧ height ≠ 0)
  let bits := Bytes.number (Bytes.slice header.data 8 1)
  let depth ← depth? bits
  let coding ← Coding.ofCode? depth (Bytes.number (Bytes.slice header.data 9 1))
  guard (Bytes.number (header.data.drop 10) = 0)
  let (colours, rest) ← Colours.scan? depth coding (rest.length + 1) {} rest
  let row := width * coding.channels * (bits / 8)
  let data ← (dataChunks? (rest.length + 1) rest).bind (content? (height * (row + 1)) [])
  let pixels ← rows? row height data
  let (model, samples) ← colours.samples? coding (bits / 8) pixels
  Decoded.ofSamples? (colourType depth model) width height
    ((Bytes.chunks (bits / 8) samples).map Bytes.number)

end Png

end ColourPipeline
