import ColourPipeline.Cache.Store

namespace ColourPipeline

structure Counts where
  batches : Nat := 0
  pixels : Nat := 0
deriving DecidableEq, Repr

def Counts.add (c : Counts) (pixels : Nat) : Counts := ⟨c.batches + 1, c.pixels + pixels⟩

structure TransformState where
  counts : Table (StageId × Int) Counts := []
  drawn : Table StageId SlotId := []
deriving DecidableEq

namespace TransformState

def count (t : TransformState) (id : StageId) (workspace : Int) : Counts :=
  (t.counts.lookup (id, workspace)).getD {}

def record (id : StageId) (workspace : Int) (pixels : Nat) (t : TransformState) :
    TransformState :=
  { t with counts := t.counts.put (id, workspace) ((t.count id workspace).add pixels) }

def forget (id : StageId) (t : TransformState) : TransformState where
  counts := t.counts.filter (·.1.1 ≠ id)
  drawn := t.drawn.remove id

end TransformState

end ColourPipeline
