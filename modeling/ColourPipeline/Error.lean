import ColourPipeline.Kind
import ColourPipeline.Region
import ColourPipeline.Text.Hex

namespace ColourPipeline

open Decimal (natText)

inductive CodecFault where
  | missingSignature
  | sizeBelowHeader (declared : Nat)
  | notAscii
  | truncated (needed found : Nat)
  | unsupportedTagType (type : UInt32)
  | recordMismatch (type : UInt32) (records : Nat)
  | lostEntry (key : String)
  | reported (text : String)
deriving DecidableEq, Repr

namespace CodecFault

def typeText (type : UInt32) : String :=
  "0x" ++ String.ofList (Text.Hex.pad 8 type.toNat)

def message : CodecFault → String
  | .missingSignature => "not an ICC profile: missing 'acsp' signature"
  | .sizeBelowHeader declared =>
    "not an ICC profile: declared size " ++ natText declared ++ " is smaller than the header"
  | .notAscii => "not an ICC profile: text tag holds non-ASCII bytes"
  | .truncated needed found =>
    "truncated data: need " ++ natText needed ++ " bytes, found " ++ natText found
  | .unsupportedTagType type => "unsupported tag type " ++ typeText type
  | .recordMismatch type records =>
    "tag type " ++ typeText type ++ " cannot hold " ++ natText records ++ " record(s)"
  | .lostEntry key => "cache slot " ++ key ++ " lost its entry"
  | .reported text => text

end CodecFault

inductive ConnectorClash where
  | category (plug socket : String)
  | channelRange (name : String) (low high : Option Nat)
  | disjointRanges (plugLow plugHigh socketLow socketHigh : Nat)
  | layout (plug socket : String)
  | alpha (plug socket : String)
deriving DecidableEq, Repr

namespace ConnectorClash

def boundText : Option Nat → String
  | some n => "Some(" ++ natText n ++ ")"
  | none => "None"

def message : ConnectorClash → String
  | .category plug socket => "category \"" ++ plug ++ "\" does not accept \"" ++ socket ++ "\""
  | .channelRange name low high =>
    "connector \"" ++ name ++ "\" declares no usable channel range (" ++ boundText low ++
      "..=" ++ boundText high ++ ")"
  | .disjointRanges a b c d =>
    "channel ranges " ++ natText a ++ "..=" ++ natText b ++ " and " ++ natText c ++ "..=" ++
      natText d ++ " do not overlap"
  | .layout plug socket => "\"" ++ plug ++ "\" and \"" ++ socket ++ "\" share no pixel layout"
  | .alpha plug socket => "\"" ++ plug ++ "\" and \"" ++ socket ++ "\" share no alpha mode"

end ConnectorClash

inductive RegionFault where
  | unusable (r : Rectangle)
  | unsizedTicket
  | unsizedOutput
  | emptySource
  | cursorOutside (x y : Nat) (bounds : PixelBounds)
  | pixelCount (width height found : Nat)
deriving DecidableEq

def RegionFault.message : RegionFault → String
  | .unusable r => r.text
  | .unsizedTicket => "no region and no output image size"
  | .unsizedOutput => "output image is unsized"
  | .emptySource => "source image is empty"
  | .cursorOutside x y b =>
    "cursor (" ++ natText x ++ ", " ++ natText y ++ ") outside " ++ natText b.width ++ "x" ++
      natText b.height ++ " region at (" ++ natText b.x ++ ", " ++ natText b.y ++ ")"
  | .pixelCount width height found =>
    natText width ++ "x" ++ natText height ++ " image needs " ++ natText (width * height) ++
      " pixels, got " ++ natText found

inductive Side where
  | plug
  | socket
deriving DecidableEq, Repr

def Side.name : Side → String
  | .plug => "plug"
  | .socket => "socket"

inductive PipelineError where
  | outOfMemory (bytes : Nat)
  | wrongType (expected found : ObjectKind)
  | categoryMismatch (registration : String) (expected found : ProviderCategory)
  | incompatibleConnector (clash : ConnectorClash)
  | cycleDetected (consumer supplier : StageId)
  | providerNotFound (pattern : String) (category : ProviderCategory)
  | noSuchContact (stage : StageId) (side : Side) (index : Nat)
  | invalidRegion (fault : RegionFault)
  | pixelUnavailable (x y : Nat)
  | missingOutput
  | invalidOption (key reason : String)
  | codec (fault : CodecFault)
  | json
  | file
  | image
deriving DecidableEq

namespace PipelineError

def message? (stageName : StageId → String) : PipelineError → Option String
  | .outOfMemory bytes => some ("allocation of " ++ natText bytes ++ " bytes failed")
  | .wrongType expected found =>
    some ("expected " ++ expected.label ++ " object, found " ++ found.label)
  | .categoryMismatch registration expected found =>
    some ("provider \"" ++ registration ++ "\" is a " ++ found.display ++
      " provider, expected " ++ expected.display)
  | .incompatibleConnector clash => some ("incompatible connectors: " ++ clash.message)
  | .cycleDetected consumer supplier =>
    some ("connecting stage " ++ stageName consumer ++ " to stage " ++ stageName supplier ++
      " would close a cycle")
  | .providerNotFound pattern category =>
    some ("no " ++ category.display ++ " provider matches \"" ++ pattern ++ "\"")
  | .noSuchContact stage side index =>
    some ("stage " ++ stageName stage ++ " has no " ++ side.name ++ " at index " ++ natText index)
  | .invalidRegion fault => some ("invalid region of interest: " ++ fault.message)
  | .pixelUnavailable x y =>
    some ("no pixel available at (" ++ natText x ++ ", " ++ natText y ++ ")")
  | .missingOutput => some "conversion has no output stage"
  | .invalidOption key reason => some ("invalid option \"" ++ key ++ "\": " ++ reason)
  | .codec fault => some ("codec error: " ++ fault.message)
  | .json | .file | .image => none

end PipelineError

namespace Rectangle

def pixelBounds (r : Rectangle) : Except PipelineError PixelBounds :=
  match r.pixelBounds? with
  | some b => .ok b
  | none => .error (.invalidRegion (.unusable r))

def inSource (r : Rectangle) (outputWidth outputHeight sourceWidth sourceHeight : Nat) :
    Except PipelineError Rectangle :=
  if outputWidth = 0 ∨ outputHeight = 0 then .error (.invalidRegion .unsizedOutput)
  else .ok (r.scaled (Float.ofNat sourceWidth / Float.ofNat outputWidth)
    (Float.ofNat sourceHeight / Float.ofNat outputHeight))

end Rectangle

end ColourPipeline
