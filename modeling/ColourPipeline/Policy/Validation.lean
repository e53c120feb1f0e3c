import ColourPipeline.Error
import ColourPipeline.Policy.Declared

namespace ColourPipeline.Policy

inductive MessageLevel where
  | debug
  | info
  | warning
  | error
deriving DecidableEq, Repr

structure Message where
  level : MessageLevel
  text : String
deriving DecidableEq, Repr

def intentKeys : List String := ["rendering_intent", "rendering_intent_proof"]

def switchKeys : List String := keys.filter (!"rendering_intent".isPrefixOf ·)

def isIntent : OptionValue → Bool
  | .int n => 0 ≤ n && n ≤ 3
  | _ => false

def isSwitch : OptionValue → Bool
  | .int n => n == 0 || n == 1
  | _ => false

def isProfileList : OptionValue → Bool
  | .profiles _ | .text _ => true
  | _ => false

def refused (s : OptionSet) (test : OptionValue → Bool) (reason : OptionValue → String)
    (key : String) : Option (String × String) :=
  match s.value? key with
  | some v => if test v then none else some (key, reason v)
  | none => none

def refusal? (s : OptionSet) : Option (String × String) :=
  (intentKeys.findSome? (refused s isIntent (·.display ++ " is not an intent in 0..=3"))).or
    ((switchKeys.findSome? (refused s isSwitch (·.display ++ " is not a 0/1 switch"))).or
      (refused s isProfileList (fun _ => "expected a profile list") simulationKey))

def validate (s : OptionSet) : Except PipelineError Unit × List Message :=
  match refusal? s with
  | some (key, reason) =>
    (.error (.invalidOption key reason), [⟨.warning, "option " ++ key ++ ": " ++ reason⟩])
  | none => (.ok (), [])

end ColourPipeline.Policy
