import ColourPipeline.Provider.Registry
import ColourPipeline.Table

namespace ColourPipeline

structure Contact where
  stage : StageId
  index : Nat
deriving DecidableEq, Repr

structure Edge where
  plug : Contact
  socket : Contact
deriving DecidableEq, Repr

structure Stage where
  id : StageId
  provider : Provider
  filter : Filter
  options : OptionSet
  images : List (Option Image)
  handles : Nat

namespace Stage

def registration (s : Stage) : Path := s.provider.registration

def image? (s : Stage) (socket : Nat) : Option Image := (s.images[socket]?).join

def plugs (s : Stage) : List Contact := (List.range s.filter.plugs.length).map (⟨s.id, ·⟩)

def sockets (s : Stage) : List Contact := (List.range s.filter.sockets.length).map (⟨s.id, ·⟩)

def plug (s : Stage) (index : Nat) : Except PipelineError Connector :=
  match s.filter.plugs[index]? with
  | some c => .ok c
  | none => .error (.noSuchContact s.id .plug index)

def socket (s : Stage) (index : Nat) : Except PipelineError Connector :=
  match s.filter.sockets[index]? with
  | some c => .ok c
  | none => .error (.noSuchContact s.id .socket index)

def withImage (s : Stage) (socket : Nat) (i : Image) : Stage :=
  { s with images := s.images.set socket (some i) }

end Stage

/-- The living stages. A plug knows the socket it pulls from; a socket lists the plugs that were
attached to it, in that order, some of which may be gone with their stages. Numbers of stages are
not used again. -/
structure Network where
  stages : List Stage
  remotes : Table Contact Contact
  listings : Table Contact (List Contact)
  created : Nat

namespace Network

def empty : Network := ⟨[], [], [], 0⟩

def find? (net : Network) (id : StageId) : Option Stage := net.stages.find? (·.id == id)

def ids (net : Network) : List StageId := net.stages.map (·.id)

def lives (net : Network) (id : StageId) : Bool := net.ids.contains id

def create (net : Network) (p : Provider) (f : Filter) : StageId × Network :=
  (net.created,
    { net with
      stages := net.stages ++
        [⟨net.created, p, f, f.defaults, f.sockets.map fun _ => none, 1⟩]
      created := net.created + 1 })

def update (f : Stage → Stage) (id : StageId) (net : Network) : Network :=
  { net with stages := net.stages.map fun s => if s.id = id then f s else s }

def setOptions (net : Network) (id : StageId) (o : OptionSet) : Network :=
  net.update (fun s => { s with options := o }) id

def setImage (net : Network) (socket : Contact) (i : Image) : Network :=
  net.update (·.withImage socket.index i) socket.stage

def stage (net : Network) (id : StageId) (side : Side) (index : Nat) :
    Except PipelineError Stage :=
  match net.find? id with
  | some s => .ok s
  | none => .error (.noSuchContact id side index)

def plug (net : Network) (p : Contact) : Except PipelineError Connector := do
  (← net.stage p.stage .plug p.index).plug p.index

def socket (net : Network) (p : Contact) : Except PipelineError Connector := do
  (← net.stage p.stage .socket p.index).socket p.index

def remote? (net : Network) (plug : Contact) : Option Contact := net.remotes.lookup plug

def listed (net : Network) (socket : Contact) : List Contact :=
  (net.listings.lookup socket).getD []

def attached (net : Network) (socket : Contact) : List Contact :=
  (net.listed socket).filter (net.lives ·.stage)

def isReady (net : Network) (s : Stage) : Bool :=
  (s.filter.plugs.zip s.plugs).all fun (c, p) => !c.mandatory || (net.remote? p).isSome

def edgesInto (net : Network) (id : StageId) : List Edge :=
  match net.find? id with
  | some s => s.plugs.filterMap fun p => (net.remote? p).map (⟨p, ·⟩)
  | none => []

def edgesFrom (net : Network) (id : StageId) : List Edge :=
  match net.find? id with
  | some s => s.sockets.flatMap fun q => (net.attached q).map (⟨·, q⟩)
  | none => []

def suppliers (net : Network) (id : StageId) : List StageId :=
  (net.edgesInto id).map (·.socket.stage)

def consumers (net : Network) (id : StageId) : List StageId :=
  (net.edgesFrom id).map (·.plug.stage)

end Network

end ColourPipeline
