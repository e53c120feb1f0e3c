import ColourPipeline.Options.Set

namespace ColourPipeline.Policy

inductive OptionChange where
  | changed
  | unchanged
  | kept
  | missing
deriving DecidableEq, Repr

def OptionChange.name : OptionChange → String
  | .changed => "changed"
  | .unchanged => "unchanged"
  | .kept => "kept"
  | .missing => "missing"

def isProtectedAt (s : OptionSet) (key : String) : Bool :=
  (s.find? key).any (·.isProtected)

def automatic (e : OptionEntry) : OptionEntry :=
  { e with flags := { e.flags with automatic := true } }

def applyDefault (defaults : OptionSet) (key : String) (s : OptionSet) :
    OptionChange × OptionSet :=
  if isProtectedAt s key then (.kept, s)
  else match defaults.find? key with
    | none => (.missing, s)
    | some d =>
      let same := (s.value? key).any (·.same d.value)
      (if same then .unchanged else .changed, s.insert (automatic d))

end ColourPipeline.Policy
