import ColourPipeline.Graph.Connection
import ColourPipeline.Graph.Conversion
import ColourPipeline.Policy.Validation
import ColourPipeline.Pull.Counts

namespace ColourPipeline

inductive Event where
  | ran (stage : StageId) (socket : Nat) (requestor : Option Contact)
  | freed (stage : StageId)
  | told (m : Policy.Message)
deriving DecidableEq, Repr

structure Pipeline where
  network : Network := .empty
  cache : ObjectCache := {}
  transforms : Table ProviderId TransformState := []
  log : List Event := []

namespace Pipeline

def transform (p : Pipeline) (id : ProviderId) : TransformState :=
  (p.transforms.lookup id).getD {}

def setTransform (p : Pipeline) (id : ProviderId) (t : TransformState) : Pipeline :=
  { p with transforms := p.transforms.put id t }

def report (p : Pipeline) (e : Event) : Pipeline := { p with log := e :: p.log }

def dropSlot (p : Pipeline) : Option SlotId → Pipeline
  | some slot => { p with cache := p.cache.drop slot }
  | none => p

def retire (p : Pipeline) (s : Stage) : Pipeline :=
  match s.filter.role with
  | .host _ => p.report (.freed s.id)
  | .transform =>
    let t := p.transform s.provider.id
    (p.setTransform s.provider.id (t.forget s.id)).dropSlot (t.drawn.lookup s.id)
  | .source | .output => p

def settle (p : Pipeline) (r : List Stage × Network) : Pipeline :=
  r.1.foldl retire { p with network := r.2 }

def create (p : Pipeline) (q : Provider) : Except PipelineError (StageId × Pipeline) := do
  let f ← q.filter
  let (id, network) := p.network.create q f
  return (id, { p with network })

def hold (p : Pipeline) (id : StageId) : Pipeline := { p with network := p.network.hold id }

def drop (p : Pipeline) (id : StageId) : Pipeline := p.settle (p.network.drop id)

def connect (p : Pipeline) (plug socket : Contact) : Except PipelineError Pipeline :=
  match Network.connect plug socket p.network with
  | .ok freed rest => .ok (p.settle (freed, rest))
  | .error e _ => .error e

def disconnect (p : Pipeline) (plug : Contact) : Pipeline := p.settle (p.network.disconnect plug)

def setOptions (p : Pipeline) (id : StageId) (o : OptionSet) : Pipeline :=
  { p with network := p.network.setOptions id o }

def setImage (p : Pipeline) (socket : Contact) (i : Image) : Except PipelineError Pipeline := do
  let _ ← p.network.socket socket
  return { p with network := p.network.setImage socket i }

def convert (p : Pipeline) (input output : Option StageId) : Conversion × Pipeline :=
  let (c, network) := Conversion.between input output p.network
  (c, { p with network })

def setInput (p : Pipeline) (c : Conversion) (id : StageId) : Conversion × Pipeline :=
  let (c, r) := c.setInput id p.network
  (c, p.settle r)

def setOutput (p : Pipeline) (c : Conversion) (id : StageId) : Conversion × Pipeline :=
  let (c, r) := c.setOutput id p.network
  (c, p.settle r)

def release (p : Pipeline) (c : Conversion) : ReleaseReport × Pipeline :=
  let (report, r) := c.release p.network
  (report, p.settle r)

end Pipeline

end ColourPipeline
