import ColourPipeline.Ticket

/-! How an image services a ticket. The cursor has moved before there are any pixels. -/

namespace ColourPipeline

namespace Ticket

def adopt (i : Image) (t : Ticket) : Ticket :=
  if t.output.isUnsized then { t with output := i.descriptor } else t

def fillRegion [Memory] (i : Image) : Work Stop Ticket Unit := do
  if i.width = 0 ∨ i.height = 0 then throw (.error (.invalidRegion .emptySource))
  let t ← get
  let region ← Work.check t.region
  let mapped ← Work.check (region.inSource t.output.width t.output.height i.width i.height)
  let bounds ← Work.check region.pixelBounds
  onArray (i.fill mapped)
  modify fun t => { t with origin := (bounds.x, bounds.y) }

def fillPixel [Memory] (i : Image) (x y : Nat) : Work Stop Ticket Unit := do
  match i.get? x y with
  | none => throw (.error (.pixelUnavailable x y))
  | some p =>
    onArray (Work.counting (PixelArray.resize 1 1))
    modify fun t => { t with array := t.array.set 0 0 p, origin := (x, y) }

def serve [Memory] (i : Image) : Work Stop Ticket Progress := do
  modify (adopt i)
  let (x, y) := (← get).cursor
  let progress ← next
  if progress ≠ .advanced then return progress
  if x < i.width ∧ y < i.height ∧ (← get).pixelsPerCall = 1 then fillPixel i x y
  else fillRegion i
  return progress

end Ticket

end ColourPipeline
