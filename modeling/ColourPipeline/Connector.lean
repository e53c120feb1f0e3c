import ColourPipeline.Error
import ColourPipeline.Json.Record
import ColourPipeline.Registration

namespace ColourPipeline

def dataCategory : String := "//colour/data"

def controlCategory : String := "//colour/control"

structure ConnectorCaps where
  planar : Bool := false
  interleaved : Bool := false
  swap : Bool := false
  swapBytes : Bool := false
  revert : Bool := false
  premultipliedAlpha : Bool := false
  nonpremultipliedAlpha : Bool := false
  subpixel : Bool := false
deriving DecidableEq, Repr

namespace ConnectorCaps

def flexible : ConnectorCaps :=
  { planar := true, interleaved := true, premultipliedAlpha := true,
    nonpremultipliedAlpha := true }

def declaresAlpha (c : ConnectorCaps) : Bool := c.premultipliedAlpha || c.nonpremultipliedAlpha

def sharesLayout (c d : ConnectorCaps) : Bool :=
  (c.planar && d.planar) || (c.interleaved && d.interleaved)

def sharesAlpha (c d : ConnectorCaps) : Bool :=
  (c.premultipliedAlpha && d.premultipliedAlpha) ||
    (c.nonpremultipliedAlpha && d.nonpremultipliedAlpha)

def fieldNames : List String :=
  ["planar", "interleaved", "swap", "swap_bytes", "revert", "premultiplied_alpha",
    "nonpremultiplied_alpha", "subpixel"]

def toJson (c : ConnectorCaps) : Json :=
  .obj (fieldNames.zip ([c.planar, c.interleaved, c.swap, c.swapBytes, c.revert,
    c.premultipliedAlpha, c.nonpremultipliedAlpha, c.subpixel].map .bool))

def ofJson? (v : Json) : Option ConnectorCaps := do
  let flag (f : Json.Field) := f.withDefault false Json.bool?
  match ← (← v.fields? fieldNames).mapM flag with
  | [planar, interleaved, swap, swapBytes, revert, premultipliedAlpha, nonpremultipliedAlpha,
      subpixel] =>
    pure ⟨planar, interleaved, swap, swapBytes, revert, premultipliedAlpha,
      nonpremultipliedAlpha, subpixel⟩
  | _ => none

end ConnectorCaps

structure Connector where
  category : String
  name : String
  minChannels : Option Nat
  maxChannels : Option Nat
  maxColourOffset : Option Nat
  caps : ConnectorCaps
  mandatory : Bool
deriving DecidableEq, Repr

namespace Connector

def data (name : String) : Connector where
  category := dataCategory
  name := name
  minChannels := some 1
  maxChannels := some 16
  maxColourOffset := some 15
  caps := .flexible
  mandatory := true

def control (name : String) : Connector where
  category := controlCategory
  name := name
  minChannels := some 1
  maxChannels := some 1
  maxColourOffset := none
  caps := { interleaved := true }
  mandatory := false

def withChannels (c : Connector) (low high : Nat) : Connector :=
  { c with minChannels := some low, maxChannels := some high }

def isCategory (c : Connector) (pattern : String) : Bool := selects pattern c.category

def channelRange? (c : Connector) : Option (Nat × Nat) := do
  let low ← c.minChannels
  let high ← c.maxChannels
  if 1 ≤ low ∧ low ≤ high then some (low, high) else none

def noRange (c : Connector) : ConnectorClash :=
  .channelRange c.name c.minChannels c.maxChannels

def clash? (plug socket : Connector) : Option ConnectorClash :=
  if !selects plug.category socket.category && !selects socket.category plug.category then
    some (.category plug.category socket.category)
  else match plug.channelRange?, socket.channelRange? with
    | none, _ => some plug.noRange
    | some _, none => some socket.noRange
    | some (a, b), some (c, d) =>
      if min b d < max a c then some (.disjointRanges a b c d)
      else if !plug.caps.sharesLayout socket.caps then some (.layout plug.name socket.name)
      else if plug.caps.declaresAlpha && socket.caps.declaresAlpha &&
          !plug.caps.sharesAlpha socket.caps then
        some (.alpha plug.name socket.name)
      else none

def checkCompatible (plug socket : Connector) : Except PipelineError Unit :=
  match plug.clash? socket with
  | some clash => .error (.incompatibleConnector clash)
  | none => .ok ()

def natOrNull (n : Option Nat) : Json := Json.ofOption (fun n => .int n) n

def toJson (c : Connector) : Json :=
  .obj [("category", .str c.category), ("name", .str c.name),
    ("min_channels", natOrNull c.minChannels), ("max_channels", natOrNull c.maxChannels),
    ("max_colour_offset", natOrNull c.maxColourOffset), ("caps", c.caps.toJson),
    ("mandatory", .bool c.mandatory)]

def ofJson? (v : Json) : Option Connector := do
  match ← v.fields? ["category", "name", "min_channels", "max_channels", "max_colour_offset",
      "caps", "mandatory"] with
  | [category, name, minChannels, maxChannels, maxColourOffset, caps, mandatory] =>
    pure {
      category := ← category.required Json.str?
      name := ← name.required Json.str?
      minChannels := ← minChannels.optional (Json.nat? Width.word)
      maxChannels := ← maxChannels.optional (Json.nat? Width.word)
      maxColourOffset := ← maxColourOffset.optional (Json.nat? Width.word)
      caps := ← caps.required ConnectorCaps.ofJson?
      mandatory := ← mandatory.required Json.bool? }
  | _ => none

end Connector

end ColourPipeline
