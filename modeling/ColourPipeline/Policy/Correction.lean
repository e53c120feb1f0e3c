import ColourPipeline.Defaults.Source
import ColourPipeline.Graph.Conversion
import ColourPipeline.Policy.Change
import ColourPipeline.Policy.Validation

namespace ColourPipeline.Policy

structure Scope where
  pattern : String := stagePattern
  category : String := dataCategory
deriving DecidableEq, Repr

structure CorrectionReport where
  stage : Option StageId := none
  changed : List String := []
  kept : List String := []
  missing : List String := []
  error : Bool := false
deriving DecidableEq, Repr

def CorrectionReport.note (key : String) (r : CorrectionReport) :
    OptionChange → CorrectionReport
  | .changed => { r with changed := r.changed ++ [key] }
  | .unchanged => r
  | .kept => { r with kept := r.kept ++ [key] }
  | .missing => { r with missing := r.missing ++ [key] }

def carries (net : Network) (category : String) (e : Edge) : Bool :=
  match net.plug e.plug, net.socket e.socket with
  | .ok p, .ok s => p.isCategory category && s.isCategory category
  | _, _ => false

def carriers (net : Network) (category : String) (id : StageId) : List StageId :=
  ((net.edgesInto id).filter (carries net category)).map (·.socket.stage)

def nearest? (net : Network) (scope : Scope) (start : StageId) : Option StageId :=
  firstFound? (carriers net scope.category) (net.isMatch scope.pattern) net.ids start

def governed? (net : Network) (scope : Scope) (c : Conversion) : Option StageId :=
  (c.output.or c.input).bind (nearest? net scope)

def rehome (registration : Path) (e : OptionEntry) : OptionEntry :=
  { e with registration := (registration.join e.key).text, source := .defaults }

/-- What holds for a stage: its source of defaults before its filter, its filter before what the
policy declares. -/
def effectiveDefaults (s : Stage) (declared : OptionSet) (source : DefaultsSource)
    (filter : AttributeFilter) : OptionSet :=
  ((OptionSet.ofList ((declared.filtered filter).entries.map (rehome s.registration))).merge
    (s.filter.defaults.filtered filter)).merge (source.query s.registration filter)

def simulation (registration : Path) (profile : String) : OptionEntry :=
  automatic {
    registration := (registration.join simulationKey).text
    value := .profiles [profile]
    source := .defaults }

def applyKey (defaults : OptionSet) (r : CorrectionReport × OptionSet) (key : String) :
    CorrectionReport × OptionSet :=
  let (change, s) := applyDefault defaults key r.2
  (r.1.note key change, s)

def applySimulation (defaults : OptionSet) (registration : Path)
    (r : CorrectionReport × OptionSet) : CorrectionReport × OptionSet :=
  if (r.2.find? simulationKey).isSome then r
  else match defaults.text? proofKey with
    | some profile =>
      (r.1.note simulationKey .changed, r.2.insert (simulation registration profile))
    | none => (r.1.note simulationKey .missing, r.2)

def correctOptions (defaults : OptionSet) (registration : Path) (id : StageId) (s : OptionSet) :
    CorrectionReport × OptionSet :=
  applySimulation defaults registration
    (keys.foldl (applyKey defaults) ({ stage := some id }, s))

def correct (net : Network) (c : Conversion) (declared : OptionSet) (source : DefaultsSource)
    (scope : Scope) : CorrectionReport × Network :=
  match (governed? net scope c).bind net.find? with
  | none => ({}, net)
  | some s =>
    let (report, options) :=
      correctOptions (effectiveDefaults s declared source .all) s.registration s.id s.options
    (report, net.setOptions s.id options)

def complaints (r : CorrectionReport) : List Message :=
  if r.stage.isSome && !r.missing.isEmpty then
    [⟨.warning, "no defaults for " ++ ", ".intercalate r.missing⟩]
  else []

end ColourPipeline.Policy
