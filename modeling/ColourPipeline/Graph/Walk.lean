import ColourPipeline.Graph.Network
import ColourPipeline.Graph.Search

namespace ColourPipeline

inductive Direction where
  | toSuppliers
  | toConsumers
  | all
deriving DecidableEq, Repr

structure Walk where
  nodes : List StageId
  edges : List Edge
deriving DecidableEq, Repr

namespace Network

def next (net : Network) (id : StageId) : Direction → List StageId
  | .toSuppliers => net.suppliers id
  | .toConsumers => net.consumers id
  | .all => net.suppliers id ++ net.consumers id

def noted (net : Network) (id : StageId) : Direction → List Edge
  | .toSuppliers | .all => net.edgesInto id
  | .toConsumers => net.edgesFrom id

def walk (net : Network) (d : Direction) (start : StageId) : Walk :=
  let nodes := search (net.next · d) net.ids start
  ⟨nodes, nodes.flatMap (net.noted · d)⟩

def isMatch (net : Network) (pattern : String) (id : StageId) : Bool :=
  (net.find? id).any ((Path.parse pattern).selects ·.registration)

def matching (net : Network) (pattern : String) (ids : List StageId) : List StageId :=
  ids.filter (net.isMatch pattern)

end Network

end ColourPipeline
