import ColourPipeline.Decimal.Style
import ColourPipeline.Text.Blank

namespace ColourPipeline

inductive OptionValue where
  | int (n : Int64)
  | double (x : Float)
  | text (s : String)
  | profiles (names : List String)
deriving DecidableEq

namespace OptionValue

def asInt : OptionValue → Option Int64
  | .int n => some n
  | _ => none

def asDouble : OptionValue → Option Float
  | .double x => some x
  | .int n => some n.toFloat
  | _ => none

def asText : OptionValue → Option String
  | .text s => some s
  | _ => none

def asProfiles : OptionValue → Option (List String)
  | .profiles names => some names
  | _ => none

def display : OptionValue → String
  | .int n => Decimal.intText n.toInt
  | .double x => Decimal.floatText x
  | .text s => s
  | .profiles names => Text.joined ", " names

/-- Equality of values; a double that is not a number differs from itself, and the two zeros
are equal. -/
def same : OptionValue → OptionValue → Bool
  | .int m, .int n => m == n
  | .double x, .double y => x == y
  | .text s, .text t => s == t
  | .profiles ps, .profiles qs => ps == qs
  | _, _ => false

end OptionValue

end ColourPipeline
