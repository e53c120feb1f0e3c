import ColourPipeline.Error
import ColourPipeline.Policy.Declared
import ColourPipeline.Provider.Filter
import ColourPipeline.Registration

namespace ColourPipeline

abbrev ProviderId := Nat

structure PolicyRule where
  pattern : String := Policy.stagePattern
  setUp : Except PipelineError Unit := .ok ()
  heard : Bool := true

inductive Service where
  | policy (rule : PolicyRule)
  | profiles
  | tags
  | filter (f : Filter)

def Service.category : Service → ProviderCategory
  | .policy _ => .policy
  | .profiles => .dataCodec
  | .tags => .tagCodec
  | .filter _ => .filter

structure Version where
  major : Nat
  minor : Nat
  patch : Nat
deriving DecidableEq, Repr

structure Provider where
  id : ProviderId
  registration : Path
  version : Version
  service : Service

namespace Provider

def category (p : Provider) : ProviderCategory := p.service.category

def mismatch (p : Provider) (expected : ProviderCategory) : PipelineError :=
  .categoryMismatch p.registration.text expected p.category

def expect (p : Provider) (c : ProviderCategory) : Except PipelineError Unit :=
  if p.category = c then .ok () else .error (p.mismatch c)

def filter (p : Provider) : Except PipelineError Filter :=
  match p.service with
  | .filter f => .ok f
  | _ => .error (p.mismatch .filter)

def rule (p : Provider) : Except PipelineError PolicyRule :=
  match p.service with
  | .policy r => .ok r
  | _ => .error (p.mismatch .policy)

end Provider

structure Registry where
  providers : List Provider

namespace Registry

def empty : Registry := ⟨[]⟩

def size (r : Registry) : Nat := r.providers.length

def isEmpty (r : Registry) : Bool := r.providers.isEmpty

def setUp : Service → Except PipelineError Unit
  | .policy rule => rule.setUp
  | _ => .ok ()

def register (r : Registry) (registration : String) (version : Version) (service : Service) :
    Except PipelineError Registry :=
  match setUp service with
  | .ok _ => .ok ⟨r.providers ++ [⟨r.size, .parse registration, version, service⟩]⟩
  | .error e => .error e

def get? (r : Registry) (id : ProviderId) : Option Provider := r.providers[id]?

def isMatch (pattern : Path) (c : ProviderCategory) (p : Provider) : Bool :=
  p.category == c && pattern.selects p.registration

def find (r : Registry) (pattern : String) (c : ProviderCategory) :
    Except PipelineError (List Provider) :=
  match r.providers.filter (isMatch (.parse pattern) c) with
  | [] => .error (.providerNotFound pattern c)
  | p :: ps => .ok (p :: ps)

def first (r : Registry) (pattern : String) (c : ProviderCategory) :
    Except PipelineError Provider :=
  match r.providers.find? (isMatch (.parse pattern) c) with
  | some p => .ok p
  | none => .error (.providerNotFound pattern c)

end Registry

end ColourPipeline
