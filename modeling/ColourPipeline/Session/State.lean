import ColourPipeline.Host

namespace ColourPipeline

structure Session where
  host : Host
  pipeline : Pipeline := {}
  stages : Table String StageId := []
  made : Table String StageId := []
  titles : Table StageId String := []
  conversions : Table String (Option Conversion) := []
  tickets : Table String Ticket := []
  slots : Table String SlotId := []
  loaded : Table String Entity := []
  caches : Table String Directory := []

namespace Session

def title (s : Session) (id : StageId) : String := (s.titles.lookup id).getD (Decimal.natText id)

def alive (s : Session) : List String :=
  ((s.titles.filter fun (id, _) => (s.pipeline.network.find? id).isSome).map (·.2)).eraseDups

end Session

inductive Setback where
  | unknown
  | fault (f : CodecFault)
  | error (e : PipelineError)
  | overflow

abbrev Action (α : Type) := EStateM Setback Session α

namespace Action

variable {α : Type}

def known : Option α → Action α
  | some a => pure a
  | none => throw .unknown

def lift : Except PipelineError α → Action α
  | .ok a => pure a
  | .error e => throw (.error e)

def read : Except CodecFault α → Action α
  | .ok a => pure a
  | .error f => throw (.fault f)

def pipeline : Action Pipeline := do return (← get).pipeline

def onPipeline (f : Pipeline → α × Pipeline) : Action α :=
  modifyGet fun s => let (a, p) := f s.pipeline; (a, { s with pipeline := p })

def change (f : Pipeline → Pipeline) : Action Unit := onPipeline fun p => ((), f p)

def setPipeline (p : Pipeline) : Action Unit := change fun _ => p

def onCache (f : ObjectCache → α × ObjectCache) : Action α :=
  onPipeline fun p => let (a, c) := f p.cache; (a, { p with cache := c })

def work (w : Work PipelineError Pipeline α) : Action α := fun s =>
  match w s.pipeline with
  | .ok a p => .ok a { s with pipeline := p }
  | .error e p => .error (.error e) { s with pipeline := p }

def held (name : String) : Action StageId := do known ((← get).stages.lookup name)

def stage (name : String) : Action Stage := do
  let id ← held name
  known ((← pipeline).network.find? id)

def nameStage (name : String) (id : StageId) : Action Unit := do
  let before := (← get).stages.lookup name
  modify fun s => { s with stages := s.stages.put name id }
  match before with
  | some id => change (·.drop id)
  | none => return

def dropStage (name : String) : Action Bool := do
  match (← get).stages.lookup name with
  | some id =>
    modify fun s => { s with stages := s.stages.remove name }
    change (·.drop id)
    return true
  | none => return false

def nameNew (name : String) (make : Pipeline → Except PipelineError (StageId × Pipeline)) :
    Action Stage := do
  let (id, p) ← lift (make (← pipeline))
  setPipeline p
  modify fun s => { s with made := s.made.put name id, titles := s.titles.put id name }
  nameStage name id
  stage name

def createFrom (q : Provider) (name : String) : Action Stage := nameNew name (·.create q)

def create (pattern name : String) : Action Stage := do
  nameNew name ((← get).host.create pattern)

def conversion? (name : String) : Action (Option Conversion) := do
  return ((← get).conversions.lookup name).join

def conversion (name : String) : Action Conversion := do known (← conversion? name)

def setConversion (name : String) (c : Option Conversion) : Action Unit :=
  modify fun s => { s with conversions := s.conversions.put name c }

def releaseAny : Option Conversion → Action ReleaseReport
  | some c => onPipeline (·.release c)
  | none => return {}

def convert (input output : Option StageId) (name : String) : Action Conversion := do
  let c ← onPipeline (·.convert input output)
  let before ← conversion? name
  setConversion name c
  let _ ← releaseAny before
  return c

def release (name : String) : Action ReleaseReport := do
  let c ← conversion? name
  if c.isSome then setConversion name (some .afterRelease)
  releaseAny c

def releasePipeline (name : String) : Action ReleaseReport := do
  let c ← conversion? name
  setConversion name none
  releaseAny c

def dropConversion (name : String) : Action Bool := do
  let any := ((← get).conversions.lookup name).isSome
  let _ ← releasePipeline name
  modify fun s => { s with conversions := s.conversions.remove name }
  return any

def ticket (name : String) : Action Ticket := do known ((← get).tickets.lookup name)

def setTicket (name : String) (t : Ticket) : Action Unit :=
  modify fun s => { s with tickets := s.tickets.put name t }

def answered : Except Stop α → Action (Except PipelineError α)
  | .ok a => return .ok a
  | .error (.error e) => return .error e
  | .error .overflow => throw .overflow

def request (name : String) (w : Pull α) : Action (Except PipelineError α) := do
  match w (← pipeline, ← ticket name) with
  | .ok a (p, t) => setPipeline p; setTicket name t; return .ok a
  | .error e (p, t) => setPipeline p; setTicket name t; answered (.error e)

def render [Memory] (c : Conversion) (limit : Option Nat) (name : String) :
    Action Rendering := do
  let s ← get
  let r := c.render (limit.getD s.host.config.maxRenderPasses) (s.pipeline, ← ticket name)
  setPipeline r.state.1
  setTicket name r.state.2
  return r

def slot (name : String) : Action SlotId := do known ((← get).slots.lookup name)

def onCacheOf (name : Option String) (f : ObjectCache → α × ObjectCache) : Action α :=
  match name with
  | none => onCache f
  | some name => do
    let other := ((← get).caches.lookup name).getD {}
    let (a, d) ← onCache fun c =>
      let (a, b) := f { c with directory := other }
      ((a, b.directory), { b with directory := c.directory })
    modify fun s => { s with caches := s.caches.put name d }
    return a

def slotFor (cache : Option String) (text name : String) : Action SlotId := do
  let id ← onCacheOf cache (·.lookup text)
  let before := (← get).slots.lookup name
  modify fun s => { s with slots := s.slots.put name id }
  match before with
  | some b => onCache fun c => ((), c.drop b)
  | none => pure ()
  return id

def releaseSlot (cache : Option String) (name : String) : Action Bool := do
  let id ← slot name
  modify fun s => { s with slots := s.slots.remove name }
  onCacheOf cache (·.release id)

def dropSlot (name : String) : Action Bool := do
  match (← get).slots.lookup name with
  | some id =>
    modify fun s => { s with slots := s.slots.remove name }
    onCache fun c => (true, c.drop id)
  | none => return false

def entity (names : Names) (c : Content) : Action Entity := do
  return .ofContent (← onCache (·.fresh)) names c

def load (pattern : String) (bs : Bytes) (name : String) : Action (Entity × List String) := do
  let h := (← get).host
  let e ← work ((h.load pattern bs).on (·.cache) fun c p => { p with cache := c })
  let before := (← get).loaded.filter fun (_, d) => d.envelope.id == e.envelope.id
  modify fun s => { s with loaded := s.loaded.put name e }
  return (e, before.map (·.1))

end Action

end ColourPipeline
