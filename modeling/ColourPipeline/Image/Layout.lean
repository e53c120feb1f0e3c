import ColourPipeline.Json.Reader
import ColourPipeline.Json.Record
import ColourPipeline.Json.Writer
import ColourPipeline.Region

namespace ColourPipeline

inductive BitDepth where
  | u8
  | u16
  | f16
  | f32
deriving DecidableEq, Repr

namespace BitDepth

def all : List BitDepth := [u8, u16, f16, f32]

def name : BitDepth → String
  | u8 => "U8"
  | u16 => "U16"
  | f16 => "F16"
  | f32 => "F32"

def display : BitDepth → String
  | u8 => "8-bit"
  | u16 => "16-bit"
  | f16 => "16-bit float"
  | f32 => "32-bit float"

def toJson (d : BitDepth) : Json := .str d.name

def ofJson? (v : Json) : Option BitDepth := v.choice? fun s => all.find? (·.name == s)

end BitDepth

structure PixelLayout where
  channels : Nat := 4
  bitDepth : BitDepth := .f32
  planar : Bool := false
  premultiplied : Bool := false
deriving DecidableEq, Repr

namespace PixelLayout

def toJson (l : PixelLayout) : Json :=
  .obj [("channels", .int l.channels), ("bit_depth", l.bitDepth.toJson),
    ("planar", .bool l.planar), ("premultiplied", .bool l.premultiplied)]

def ofJson? (v : Json) : Option PixelLayout := do
  match ← v.fields? ["channels", "bit_depth", "planar", "premultiplied"] with
  | [channels, bitDepth, planar, premultiplied] =>
    pure {
      channels := ← channels.required (Json.nat? Width.byte)
      bitDepth := ← bitDepth.required BitDepth.ofJson?
      planar := ← planar.required Json.bool?
      premultiplied := ← premultiplied.required Json.bool? }
  | _ => none

end PixelLayout

structure ImageDescriptor where
  width : Nat := 0
  height : Nat := 0
  layout : PixelLayout := {}
deriving DecidableEq, Repr

namespace ImageDescriptor

def isUnsized (d : ImageDescriptor) : Bool := d.width == 0 || d.height == 0

def toJson (d : ImageDescriptor) : Json :=
  .obj [("width", .int d.width), ("height", .int d.height), ("layout", d.layout.toJson)]

def ofJson? (v : Json) : Option ImageDescriptor := do
  match ← v.fields? ["width", "height", "layout"] with
  | [width, height, layout] =>
    pure {
      width := ← width.required (Json.nat? Width.word)
      height := ← height.required (Json.nat? Width.word)
      layout := ← layout.required PixelLayout.ofJson? }
  | _ => none

end ImageDescriptor

namespace Rectangle

def toJson (r : Rectangle) : Json :=
  .obj [("x", .float r.x), ("y", .float r.y), ("width", .float r.width),
    ("height", .float r.height)]

def ofJson? (v : Json) : Option Rectangle := do
  match ← v.fields? ["x", "y", "width", "height"] with
  | [x, y, width, height] =>
    pure {
      x := ← x.required Json.float?
      y := ← y.required Json.float?
      width := ← width.required Json.float?
      height := ← height.required Json.float? }
  | _ => none

end Rectangle

end ColourPipeline
