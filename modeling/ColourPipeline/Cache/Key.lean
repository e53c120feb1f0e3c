import ColourPipeline.Digest.Sha256

namespace ColourPipeline

inductive CacheKey where
  | inline (text : String)
  | digest (bytes : Bytes)
deriving DecidableEq, Repr

namespace CacheKey

def inlineLimit : Nat := 31

def ofText (text : String) : CacheKey :=
  if text.utf8ByteSize < inlineLimit then .inline text
  else .digest (Digest.sha256 (Bytes.ofText text))

def display : CacheKey → String
  | .inline text => text
  | .digest bytes => Text.Hex.encode bytes

end CacheKey

end ColourPipeline
