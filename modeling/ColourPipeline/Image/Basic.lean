import ColourPipeline.Image.Array
import ColourPipeline.Image.Layout

namespace ColourPipeline

structure Image where
  width : Nat
  height : Nat
  layout : PixelLayout
  pixels : Array Pixel
deriving DecidableEq

namespace Image

def descriptor (i : Image) : ImageDescriptor := ⟨i.width, i.height, i.layout⟩

def ofPixels (width height : Nat) (layout : PixelLayout) (pixels : List Pixel) :
    Except PipelineError Image :=
  if pixels.length = width * height then .ok ⟨width, height, layout, pixels.toArray⟩
  else .error (.invalidRegion (.pixelCount width height pixels.length))

def filled (width height : Nat) (p : Pixel) : Image :=
  ⟨width, height, {}, Array.replicate (width * height) p⟩

def cells (width height : Nat) : List (Nat × Nat) :=
  (List.range height).flatMap fun y => (List.range width).map fun x => (x, y)

def ofFn (width height : Nat) (f : Nat → Nat → Pixel) : Image :=
  ⟨width, height, {}, ((cells width height).map fun (x, y) => f x y).toArray⟩

def get? (i : Image) (x y : Nat) : Option Pixel :=
  if x < i.width ∧ y < i.height then i.pixels[y * i.width + x]? else none

def copyCell (i : Image) (b : PixelBounds) : Nat × Nat → Work Stop PixelArray Unit
  | (c, r) => do
    let x ← Work.lift (Stop.sum Width.word b.x c)
    let y ← Work.lift (Stop.sum Width.word b.y r)
    match i.get? x y with
    | some p => modify (·.set c r p)
    | none => return

def copyCells (i : Image) (b : PixelBounds) : Work Stop PixelArray Unit :=
  (cells b.width b.height).forM (i.copyCell b)

def fillWithin (room : Nat) (i : Image) (r : Rectangle) : Work Stop PixelArray Unit := do
  let b ← Work.check r.pixelBounds
  Work.counting (PixelArray.resizeWithin room b.width b.height)
  i.copyCells b

def fill [Memory] (i : Image) (r : Rectangle) : Work Stop PixelArray Unit :=
  i.fillWithin Memory.room r

end Image

end ColourPipeline
