import ColourPipeline.Profile

namespace ColourPipeline

inductive TagRecord where
  | text (s : String)
  | signature (n : UInt32)
deriving DecidableEq, Repr

structure TagBlock where
  signature : UInt32
  data : Bytes
deriving DecidableEq, Repr

namespace TagBlock

def type? (t : TagBlock) : Option UInt32 :=
  if 4 ≤ t.data.length then some (Bytes.word t.data 0) else none

end TagBlock

namespace Tag

def textType : UInt32 := 0x74657874

def signatureType : UInt32 := 0x73696720

def preambleLength : Nat := 8

def isSupported (type : UInt32) : Bool := type == textType || type == signatureType

def canHandle : CodecQuery → UInt32 → Nat
  | .compatibility, _ => 1
  | .tagRead, type | .tagWrite, type => if isSupported type then 1 else 0
  | .profileFormat, _ => 0

def decodeText (payload : Bytes) : Except CodecFault String :=
  let text := payload.takeWhile (· ≠ 0)
  if text.all Bytes.isAscii then .ok (Bytes.latin text) else .error .notAscii

def decode (t : TagBlock) : Except CodecFault (List TagRecord) :=
  let found := t.data.length
  if found < preambleLength then .error (.truncated preambleLength found)
  else
    let type := Bytes.word t.data 0
    let payload := t.data.drop preambleLength
    if type = textType then (decodeText payload).map fun s => [.text s]
    else if type = signatureType then
      if payload.length < 4 then .error (.truncated (preambleLength + 4) found)
      else .ok [.signature (Bytes.word payload 0)]
    else .error (.unsupportedTagType type)

def encodeText (s : String) : Option Bytes :=
  if s.toList.all fun c => c.toNat ≠ 0 ∧ c.toNat < 128 then
    some (s.toList.map (fun c => UInt8.ofNat c.toNat) ++ [0])
  else none

def payload? (type : UInt32) : List TagRecord → Option Bytes
  | [.text s] => if type = textType then encodeText s else none
  | [.signature n] => if type = signatureType then some (Bytes.ofWord n) else none
  | _ => none

def encode (type : UInt32) (records : List TagRecord) : Except CodecFault Bytes :=
  if !isSupported type then .error (.unsupportedTagType type)
  else match payload? type records with
    | some payload => .ok (Bytes.ofWord type ++ [0, 0, 0, 0] ++ payload)
    | none => .error (.recordMismatch type records.length)

end Tag

end ColourPipeline
