import ColourPipeline.Envelope
import ColourPipeline.Gain
import ColourPipeline.Image.Basic
import ColourPipeline.Profile

namespace ColourPipeline

inductive Content where
  | image (i : Image)
  | array (a : PixelArray)
  | profile (p : Profile)
  | transform (k : Gain)
  | custom (label : String)
deriving DecidableEq

namespace Content

def kind : Content → ObjectKind
  | .image _ => .image
  | .array _ => .array
  | .profile _ => .profile
  | .transform _ => .transform
  | .custom label => .custom label

def isCopied : Content → Bool
  | .image _ | .array _ | .profile _ => true
  | .transform _ | .custom _ => false

def digest? : Content → Option Bytes
  | .profile p => some p.digest
  | _ => none

def gain? : Content → Option Gain
  | .transform k => some k
  | _ => none

end Content

structure Entity where
  envelope : Envelope
  content : Content
deriving DecidableEq

namespace Entity

def ofContent (id : Nat) (names : Names) (c : Content) : Entity :=
  ⟨{ kind := c.kind, id, names, digest := c.digest? }, c⟩

def ofProfile (id : Nat) (p : Profile) : Entity :=
  ofContent id { description := some p.summary } (.profile p)

def copy (id : Nat) (e : Entity) : Entity :=
  ⟨{ e.envelope.duplicate id with digest := e.content.digest? }, e.content⟩

end Entity

end ColourPipeline
