import ColourPipeline.Graph.Liveness
import ColourPipeline.Graph.Walk

namespace ColourPipeline

structure Conversion where
  input : Option StageId := none
  output : Option StageId := none
  released : Bool := false
deriving DecidableEq, Repr

inductive ConversionState where
  | unbuilt
  | built
  | released
deriving DecidableEq, Repr

structure ReleaseReport where
  visited : Nat := 0
  released : List StageId := []
  retained : List StageId := []
deriving DecidableEq, Repr

namespace Conversion

def ends (c : Conversion) : List StageId := c.input.toList ++ c.output.toList

def between (input output : Option StageId) (net : Network) : Conversion × Network :=
  let c : Conversion := { input, output }
  (c, c.ends.foldl .hold net)

def setInput (c : Conversion) (id : StageId) (net : Network) :
    Conversion × List Stage × Network :=
  ({ c with input := some id, released := false }, (net.hold id).dropAll c.input.toList)

def setOutput (c : Conversion) (id : StageId) (net : Network) :
    Conversion × List Stage × Network :=
  ({ c with output := some id, released := false }, (net.hold id).dropAll c.output.toList)

def state (c : Conversion) : ConversionState :=
  if c.released then .released
  else if c.ends.isEmpty then .unbuilt
  else .built

def start? (c : Conversion) : Option StageId := c.input.or c.output

def walk? (c : Conversion) (d : Direction) (net : Network) : Option Walk :=
  c.start?.map (net.walk d)

def afterRelease : Conversion := { released := true }

def report (w : Walk) (net : Network) : ReleaseReport where
  visited := w.nodes.length
  released := w.nodes.filter fun id => !net.ids.contains id
  retained := w.nodes.filter fun id => net.ids.contains id

def release (c : Conversion) (net : Network) : ReleaseReport × List Stage × Network :=
  match c.walk? .all net with
  | some w =>
    let (freed, net) := net.dropAll c.ends
    (report w net, freed, net)
  | none => ({}, [], net)

end Conversion

end ColourPipeline
