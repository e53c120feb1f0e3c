import ColourPipeline.Bytes
import ColourPipeline.Kind

namespace ColourPipeline

inductive NameKind where
  | nick
  | name
  | description
deriving DecidableEq, Repr

structure Names where
  nick : Option String := none
  name : Option String := none
  description : Option String := none
deriving DecidableEq, Repr

namespace Names

def set (n : Names) (which : NameKind) (text : String) : Names :=
  match which with
  | .nick => { n with nick := some text }
  | .name => { n with name := some text }
  | .description => { n with description := some text }

end Names

structure Envelope where
  kind : ObjectKind
  id : Nat
  names : Names := {}
  digest : Option Bytes := none
deriving DecidableEq, Repr

namespace Envelope

def duplicate (e : Envelope) (id : Nat) : Envelope := { e with id, digest := none }

def setDigest (e : Envelope) (d : Bytes) : Envelope := { e with digest := e.digest.or (some d) }

end Envelope

end ColourPipeline
