import ColourPipeline.Options.Json
import ColourPipeline.Pull.Pipeline
import ColourPipeline.Source

/-! Pulls through stages, each of which may pull from another one. -/

namespace ColourPipeline

abbrev Pull (α : Type) := Work Stop (Pipeline × Ticket) α

namespace Pull

variable {α : Type}

def onTicket (w : Work Stop Ticket α) : Pull α := w.on (·.2) fun t s => (s.1, t)

def pipeline : Pull Pipeline := do return (← get).1

def change (f : Pipeline → Pipeline) : Pull Unit := modify fun (p, t) => (f p, t)

def changeTicket (f : Ticket → Ticket) : Pull Unit := modify fun (p, t) => (p, f t)

end Pull

def Stage.gainKey (s : Stage) : String := s.registration.text ++ ":" ++ s.options.compactText

namespace Pipeline

def drawFrom (p : Pipeline) (s : Stage) (slot : SlotId) : Pipeline :=
  let t := p.transform s.provider.id
  let q := p.setTransform s.provider.id { t with drawn := t.drawn.put s.id slot }
  match t.drawn.lookup s.id with
  | none => q
  | some previous =>
    if previous = slot then { q with cache := q.cache.drop slot }
    else { q with cache := (q.cache.release previous).2 }

def drawGain (s : Stage) (p : Pipeline) : Gain × Pipeline :=
  let (slot, cache) := p.cache.lookup s.gainKey
  let p := { p with cache }.drawFrom s slot
  match (p.cache.get? slot .transform).bind (·.content.gain?) with
  | some k => (k, p)
  | none =>
    let k := Gain.ofOptions s.options
    let (id, cache) := p.cache.fresh
    (k, { p with cache := cache.set slot (.ofContent id {} (.transform k)) })

def countBatch (s : Stage) (workspace : Int) (pixels : Nat) (p : Pipeline) : Pipeline :=
  p.setTransform s.provider.id ((p.transform s.provider.id).record s.id workspace pixels)

end Pipeline

namespace Pull

def applyGain (s : Stage) : Pull Unit := do
  let (k, p) := (← pipeline).drawGain s
  change fun _ => p
  changeTicket fun t => { t with array := k.apply t.array }
  let (_, t) ← get
  change (.countBatch s t.workspace t.array.size)

def through (run : Stage → Nat → Option Contact → Pull Progress) (s : Stage) (plug : Nat) :
    Pull Progress := do
  let _ ← Work.check (s.plug plug)
  let net := (← pipeline).network
  match net.remote? ⟨s.id, plug⟩ with
  | none => return .unchanged
  | some socket =>
    match net.find? socket.stage with
    | some supplier => run supplier socket.index (some ⟨s.id, plug⟩)
    | none => return .unchanged

def serve [Memory] (s : Stage) (socket : Nat) : Pull Progress :=
  match s.image? socket with
  | some i => onTicket (Ticket.serve i)
  | none => return .unchanged

def service [Memory] : Nat → Stage → Nat → Option Contact → Pull Progress
  | 0, _, _, _ => return .unchanged
  | depth + 1, s, socket, requestor => do
    match s.filter.role with
    | .source => serve s socket
    | .output =>
      if (← pipeline).network.isReady s then through (service depth) s 0
      else return .unchanged
    | .transform =>
      let progress ← through (service depth) s 0
      if progress = .advanced then applyGain s
      return progress
    | .host action =>
      change (·.report (.ran s.id socket requestor))
      match action with
      | .pull plug => through (service depth) s plug
      | .serve => serve s socket
      | .answer progress => return progress
      | .refuse text => throw (.error (.codec (.reported text)))

-- There are stages enough for any chain of pulls, as none pulls from itself by way of others.
def depth : Pull Nat := do return (← pipeline).network.stages.length

def run [Memory] (s : Stage) (socket : Nat) : Pull Progress := do service (← depth) s socket none

def pull [Memory] (s : Stage) (plug : Nat) : Pull Progress := do through (service (← depth)) s plug

end Pull

end ColourPipeline
