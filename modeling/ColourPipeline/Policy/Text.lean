import ColourPipeline.Policy.Declared

namespace ColourPipeline.Policy

def intentNames : List String :=
  ["perceptual", "relative colorimetric", "saturation", "absolute colorimetric"]

def shown (s : OptionSet) (key : String) : String :=
  (((s.value? key).or (declared.value? key)).map (·.display)).getD ""

def intentName? (key value : String) : Option String :=
  if "rendering_intent".isPrefixOf key then
    (Decimal.nat? value.toList).bind (intentNames[·]?)
  else none

def line (key value : String) : String :=
  match intentName? key value with
  | some name => "  " ++ key ++ ": " ++ value ++ " (" ++ name ++ ")\n"
  | none => "  " ++ key ++ ": " ++ value ++ "\n"

def text (s : OptionSet) : String :=
  "Default Profiles:\n" ++
    String.join (profileDefaults.map fun (key, _) => line key (shown s key)) ++
    "Behaviour:\n" ++
    String.join (behaviourDefaults.map fun b => line b.key (shown s b.key))

end ColourPipeline.Policy
