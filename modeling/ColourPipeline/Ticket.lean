import ColourPipeline.Image.Basic

/-! Tickets: a region, and a cursor that moves over it batch by batch. -/

namespace ColourPipeline

inductive Progress where
  | advanced
  | completed
  | unchanged
deriving DecidableEq, Repr

structure Ticket where
  cursor : Nat × Nat
  roi : Option Rectangle
  pixelsPerCall : UInt64
  array : PixelArray
  origin : Nat × Nat
  output : ImageDescriptor
  workspace : Int
  exhausted : Bool
deriving DecidableEq

namespace Ticket

def start (roi : Option Rectangle) : Nat × Nat :=
  match roi.bind (·.pixelBounds?) with
  | some b => (b.x, b.y)
  | none => (0, 0)

def ofRegion (roi : Option Rectangle) (pixelsPerCall : UInt64) : Ticket where
  cursor := start roi
  roi := roi
  pixelsPerCall := pixelsPerCall
  array := .empty
  origin := (0, 0)
  output := {}
  workspace := 0
  exhausted := false

def ofImage (output : ImageDescriptor) : Ticket := { ofRegion none 0 with output }

def rewind (t : Ticket) : Ticket := { t with cursor := start t.roi, exhausted := false }

def setRegion (t : Ticket) (roi : Option Rectangle) : Ticket := { t with roi }.rewind

def region (t : Ticket) : Except PipelineError Rectangle :=
  match t.roi with
  | some r => .ok r
  | none =>
    if t.output.isUnsized then .error (.invalidRegion .unsizedTicket)
    else .ok (.ofSize t.output.width t.output.height)

def rasterIndex (b : PixelBounds) (x y : Nat) : Nat := (y - b.y) * b.width + (x - b.x)

def pace (b : PixelBounds) (n : UInt64) : Nat := if n = 0 then b.area else n.toNat

/-- Moves past the batch at the cursor, of which the bounds are known. The last batch leaves
the cursor in place. -/
def advance (t : Ticket) (b : PixelBounds) : Except Stop Ticket := do
  let (x, y) := t.cursor
  let next ← Stop.sum Width.long (rasterIndex b x y) (pace b t.pixelsPerCall)
  if b.area ≤ next then return { t with exhausted := true }
  let x ← Stop.sum Width.word b.x (next % b.width)
  let y ← Stop.sum Width.word b.y (next / b.width)
  return { t with cursor := (x, y) }

def next : Work Stop Ticket Progress := do
  let t ← get
  if t.exhausted then return .completed
  let b ← Work.check (t.region.bind (·.pixelBounds))
  let (x, y) := t.cursor
  if b.contains x y then
    set (← Work.lift (t.advance b))
    return .advanced
  else throw (.error (.invalidRegion (.cursorOutside x y b)))

def onArray {ε α : Type} (w : Work ε PixelArray α) : Work ε Ticket α :=
  w.on (·.array) fun array t => { t with array }

end Ticket

end ColourPipeline
