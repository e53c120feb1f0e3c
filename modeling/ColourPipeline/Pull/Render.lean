import ColourPipeline.Pull.Service

namespace ColourPipeline

structure RenderSummary where
  passes : Nat
  last : Progress
deriving DecidableEq, Repr

structure Rendering where
  outcome : Except Stop RenderSummary
  batches : List Ticket
  state : Pipeline × Ticket

namespace Rendering

def go (request : Pull Progress) : Nat → RenderSummary → List Ticket → Pipeline × Ticket →
    Rendering
  | 0, sum, seen, s => ⟨.ok sum, seen.reverse, s⟩
  | limit + 1, sum, seen, s =>
    match request s with
    | .error e s => ⟨.error e, seen.reverse, s⟩
    | .ok last s =>
      if last = .advanced then go request limit ⟨sum.passes + 1, last⟩ (s.2 :: seen) s
      else ⟨.ok ⟨sum.passes + 1, last⟩, seen.reverse, s⟩

end Rendering

namespace Conversion

def run [Memory] (c : Conversion) : Pull Progress := do
  match c.output with
  | none => throw (.error .missingOutput)
  | some id =>
    match (← Pull.pipeline).network.find? id with
    | some s => Pull.run s 0
    | none => throw (.error .missingOutput)

def render [Memory] (c : Conversion) (limit : Nat) (s : Pipeline × Ticket) : Rendering :=
  Rendering.go c.run limit ⟨0, .unchanged⟩ [] s

end Conversion

end ColourPipeline
