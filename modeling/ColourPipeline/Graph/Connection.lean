import ColourPipeline.Graph.Liveness
import ColourPipeline.Graph.Walk

namespace ColourPipeline

namespace Network

def cut (net : Network) (plug : Contact) : Network :=
  match net.remote? plug with
  | none => net
  | some socket =>
    { net with
      remotes := net.remotes.remove plug
      listings := net.listings.put socket ((net.attached socket).filter (· ≠ plug)) }

def letGo (net : Network) : Option Contact → List Stage × Network
  | some socket => net.collect [socket.stage]
  | none => ([], net)

def disconnect (net : Network) (plug : Contact) : List Stage × Network :=
  (net.cut plug).letGo (net.remote? plug)

def closesCycle (net : Network) (plug socket : Contact) : Bool :=
  (net.walk .toSuppliers socket.stage).nodes.contains plug.stage

def link (net : Network) (plug socket : Contact) : Network :=
  { net with
    remotes := net.remotes.put plug socket
    listings := net.listings.put socket (net.attached socket ++ [plug]) }

def attach (net : Network) (plug socket : Contact) : Network := (net.cut plug).link plug socket

def connect (plug socket : Contact) : Work PipelineError Network (List Stage) := do
  let net ← get
  let p ← Work.lift (net.plug plug)
  let s ← Work.lift (net.socket socket)
  Work.lift (p.checkCompatible s)
  if net.closesCycle plug socket then throw (.cycleDetected plug.stage socket.stage)
  let (freed, rest) := (net.attach plug socket).letGo (net.remote? plug)
  set rest
  return freed

end Network

end ColourPipeline
