import ColourPipeline.Decimal.Digits

namespace ColourPipeline

inductive ObjectKind where
  | stage
  | conversion
  | ticket
  | cacheSlot
  | provider
  | image
  | array
  | profile
  | transform
  | custom (label : String)
deriving DecidableEq, Repr

def ObjectKind.label : ObjectKind → String
  | .stage => "stage"
  | .conversion => "conversion"
  | .ticket => "ticket"
  | .cacheSlot => "cache slot"
  | .provider => "provider"
  | .image => "image"
  | .array => "array"
  | .profile => "profile"
  | .transform => "transform"
  | .custom label => label

inductive ProviderCategory where
  | policy
  | dataCodec
  | tagCodec
  | filter
deriving DecidableEq, Repr

namespace ProviderCategory

def all : List ProviderCategory := [policy, dataCodec, tagCodec, filter]

def name : ProviderCategory → String
  | .policy => "Policy"
  | .dataCodec => "DataCodec"
  | .tagCodec => "TagCodec"
  | .filter => "Filter"

def display : ProviderCategory → String
  | .policy => "policy"
  | .dataCodec => "data codec"
  | .tagCodec => "tag codec"
  | .filter => "filter"

end ProviderCategory

abbrev StageId := Nat

end ColourPipeline
