import ColourPipeline.Bytes
import ColourPipeline.Work

namespace ColourPipeline

/-- How much there is room for: the pixels of an array take less than so many bytes. -/
class Memory where
  room : Nat

structure Pixel where
  r : Float32
  g : Float32
  b : Float32
  a : Float32
deriving DecidableEq

namespace Pixel

def zero : Pixel := ⟨0, 0, 0, 0⟩

instance : Inhabited Pixel := ⟨zero⟩

def bytes (p : Pixel) : Bytes :=
  [p.r, p.g, p.b, p.a].flatMap fun x => Bytes.ofNatLittle 4 x.toBits.toNat

end Pixel

structure PixelArray where
  width : Nat
  height : Nat
  pixels : Array Pixel
deriving DecidableEq

namespace PixelArray

def empty : PixelArray := ⟨0, 0, #[]⟩

def isEmpty (a : PixelArray) : Bool := a.pixels.isEmpty

def size (a : PixelArray) : Nat := a.pixels.size

def resizeWithin (room width height : Nat) : Work PipelineError PixelArray Unit := fun a =>
  let bytes := 16 * (width * height)
  -- Where there is no room, the pixels are gone all the same; width and height are not.
  if room ≤ bytes then
    .error (.outOfMemory (min bytes (Width.long - 1))) { a with pixels := #[] }
  else .ok () ⟨width, height, Array.replicate (width * height) .zero⟩

def allocateWithin (room width height : Nat) : Except PipelineError PixelArray :=
  match resizeWithin room width height empty with
  | .ok _ a => .ok a
  | .error e _ => .error e

def resize [Memory] (width height : Nat) : Work PipelineError PixelArray Unit :=
  resizeWithin Memory.room width height

def allocate [Memory] (width height : Nat) : Except PipelineError PixelArray :=
  allocateWithin Memory.room width height

def index? (a : PixelArray) (x y : Nat) : Option Nat :=
  if x < a.width ∧ y < a.height then some (y * a.width + x) else none

def get? (a : PixelArray) (x y : Nat) : Option Pixel := (a.index? x y).bind (a.pixels[·]?)

def set (a : PixelArray) (x y : Nat) (p : Pixel) : PixelArray :=
  match a.index? x y with
  | some i => { a with pixels := a.pixels.setIfInBounds i p }
  | none => a

def row? (a : PixelArray) (y : Nat) : Option (List Pixel) :=
  (a.index? 0 y).map fun i => (a.pixels.extract i (i + a.width)).toList

def map (a : PixelArray) (f : Pixel → Pixel) : PixelArray := { a with pixels := a.pixels.map f }

def bytes (a : PixelArray) : Bytes := a.pixels.toList.flatMap (·.bytes)

end PixelArray

end ColourPipeline
