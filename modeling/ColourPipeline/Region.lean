import ColourPipeline.Decimal.Style
import ColourPipeline.Width

namespace ColourPipeline

structure Rectangle where
  x : Float
  y : Float
  width : Float
  height : Float
deriving DecidableEq

structure PixelBounds where
  x : Nat
  y : Nat
  width : Nat
  height : Nat
deriving DecidableEq, Repr

namespace PixelBounds

def area (b : PixelBounds) : Nat := b.width * b.height

def contains (b : PixelBounds) (x y : Nat) : Bool :=
  b.x ≤ x && b.y ≤ y && x < b.x + b.width && y < b.y + b.height

end PixelBounds

namespace Rectangle

def ofSize (width height : Nat) : Rectangle :=
  ⟨0, 0, Float.ofNat width, Float.ofNat height⟩

def isEmpty (r : Rectangle) : Bool := !(0 < r.width && 0 < r.height)

def scaled (r : Rectangle) (sx sy : Float) : Rectangle :=
  ⟨r.x * sx, r.y * sy, r.width * sx, r.height * sy⟩

def isFinite (r : Rectangle) : Bool :=
  r.x.isFinite && r.y.isFinite && r.width.isFinite && r.height.isFinite

def limit : Nat := Width.word - 1

def span (start length : Float) : Nat × Nat :=
  let first := (Decimal.floor? start).getD 0
  match Decimal.ceil? (start + length) with
  -- An end that is too large for its width is cut off, and so is an extent without end.
  | some past => (min first limit, min (past - first) limit)
  | none => (min first limit, limit)

def pixelBounds? (r : Rectangle) : Option PixelBounds :=
  if !r.isFinite || r.x < 0 || r.y < 0 || r.isEmpty then none
  else
    let (x, width) := span r.x r.width
    let (y, height) := span r.y r.height
    some ⟨x, y, width, height⟩

def text (r : Rectangle) : String :=
  Decimal.floatText r.width ++ "x" ++ Decimal.floatText r.height ++ " at (" ++
    Decimal.floatText r.x ++ ", " ++ Decimal.floatText r.y ++ ")"

end Rectangle

end ColourPipeline
