import ColourPipeline.Connector
import ColourPipeline.Options.Set
import ColourPipeline.Ticket

namespace ColourPipeline

inductive HostAction where
  | pull (plug : Nat)
  | serve
  | answer (p : Progress)
  | refuse (text : String)
deriving DecidableEq, Repr

inductive FilterRole where
  | source
  | output
  | transform
  | host (action : HostAction)
deriving DecidableEq, Repr

structure Filter where
  plugs : List Connector
  sockets : List Connector
  defaults : OptionSet := .empty
  role : FilterRole
deriving DecidableEq

end ColourPipeline
