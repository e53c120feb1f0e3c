import ColourPipeline.Policy.Correction
import ColourPipeline.Pull.Render
import ColourPipeline.Tag

namespace ColourPipeline

structure Host where
  registry : Registry
  config : Config := {}
  defaults : DefaultsSource := .fixed .empty

namespace Host

def policy (h : Host) : Except PipelineError Provider :=
  h.registry.first h.config.policyPattern .policy

def create (h : Host) (pattern : String) (p : Pipeline) :
    Except PipelineError (StageId × Pipeline) := do
  p.create (← h.registry.first pattern .filter)

def rule (h : Host) : Except PipelineError PolicyRule := h.policy.bind (·.rule)

def tell (rule : PolicyRule) (ms : List Policy.Message) : Work PipelineError Pipeline Unit :=
  modify fun p => if rule.heard then ms.foldl (fun p m => p.report (.told m)) p else p

def correct (h : Host) (c : Conversion) (request : OptionSet) :
    Work PipelineError Pipeline Policy.CorrectionReport := do
  let rule ← Work.lift h.rule
  let (verdict, messages) := Policy.validate request
  tell rule messages
  Work.lift verdict
  let p ← get
  let (report, network) := Policy.correct p.network c Policy.declared h.defaults
    ⟨rule.pattern, h.config.dataCategory⟩
  set { p with network }
  tell rule (Policy.complaints report)
  return report

def codec {α : Type} : Except CodecFault α → Except PipelineError α
  | .ok a => .ok a
  | .error f => .error (.codec f)

def loadKey (q : Provider) (bs : Bytes) : String :=
  q.registration.text ++ ":" ++ Text.Hex.encode (Digest.sha256 bs)

def loadProfile (id : Nat) (bs : Bytes) (_flags : UInt32) : Except PipelineError Entity :=
  (codec (Profile.parse bs)).map (.ofProfile id)

def scanProfile (bs : Bytes) : Except PipelineError ScanSummary :=
  (codec (Profile.parse bs)).map fun p => { summary := p.summary }

def loadInto (slot : SlotId) (bs : Bytes) (flags : UInt32) :
    Work PipelineError ObjectCache Entity := do
  let (id, c) := (← get).fresh
  let e ← Work.lift (loadProfile id bs flags)
  let c := c.set slot e
  set c
  match c.entry? slot with
  | some e => return e
  | none =>
    throw (.codec (.lostEntry ((c.slots[slot]?.map (·.key.display)).getD "")))

def load (h : Host) (pattern : String) (bs : Bytes) (flags : UInt32 := 0) :
    Work PipelineError ObjectCache Entity := do
  let q ← Work.lift (h.registry.first pattern .dataCodec)
  let (slot, c) := (← get).lookup (loadKey q bs)
  set (c.drop slot)
  match c.entry? slot with
  | some e => return e
  | none => loadInto slot bs flags

def scan (h : Host) (pattern : String) (bs : Bytes) : Except PipelineError ScanSummary := do
  let _ ← h.registry.first pattern .dataCodec
  scanProfile bs

def tagCodec (h : Host) (type : UInt32) (write : Bool) : Except PipelineError Provider := do
  let candidates ← h.registry.find "" .tagCodec
  let query : CodecQuery := if write then .tagWrite else .tagRead
  match candidates.find? fun _ => 0 < Tag.canHandle query type with
  | some q => return q
  | none => throw (.providerNotFound ("tag type " ++ CodecFault.typeText type) .tagCodec)

end Host

end ColourPipeline
