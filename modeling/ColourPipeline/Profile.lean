import ColourPipeline.Digest.Sha256
import ColourPipeline.Error

namespace ColourPipeline

open Decimal (natText)

def signatureText (signature : UInt32) : String :=
  String.ofList ((Bytes.ofWord signature).map fun b =>
    if 0x20 ≤ b ∧ b < 0x7f then Char.ofNat b.toNat else '?')

structure Profile where
  bytes : Bytes
deriving DecidableEq, Repr

namespace Profile

def headerLength : Nat := 128

def magic : Bytes := [0x61, 0x63, 0x73, 0x70]

def declaredSize (bs : Bytes) : Nat := Bytes.number (bs.take 4)

def parse (bs : Bytes) : Except CodecFault Profile :=
  if bs.length < headerLength then .error (.truncated headerLength bs.length)
  else if Bytes.slice bs 36 4 ≠ magic then .error .missingSignature
  else if declaredSize bs < headerLength then .error (.sizeBelowHeader (declaredSize bs))
  else if bs.length < declaredSize bs then .error (.truncated (declaredSize bs) bs.length)
  else .ok ⟨bs.take (declaredSize bs)⟩

def size (p : Profile) : Nat := p.bytes.length

def byte (p : Profile) (offset : Nat) : Nat := (p.bytes.getD offset 0).toNat

def version (p : Profile) : Nat × Nat := (p.byte 8, p.byte 9 / 16)

def deviceClass (p : Profile) : UInt32 := Bytes.word p.bytes 12

def colourSpace (p : Profile) : UInt32 := Bytes.word p.bytes 16

def connectionSpace (p : Profile) : UInt32 := Bytes.word p.bytes 20

def digest (p : Profile) : Bytes := Digest.sha256 p.bytes

def summary (p : Profile) : String :=
  "ICC profile v" ++ natText p.version.1 ++ "." ++ natText p.version.2 ++ ", class '" ++
    signatureText p.deviceClass ++ "', colour space '" ++ signatureText p.colourSpace ++ "', " ++
    natText p.size ++ " bytes"

end Profile

structure ScanSummary where
  summary : String
  sourceName : Option String := none
deriving DecidableEq, Repr

inductive CodecQuery where
  | compatibility
  | profileFormat
  | tagRead
  | tagWrite
deriving DecidableEq, Repr

def Profile.canHandle : CodecQuery → UInt32 → Nat
  | .compatibility, _ => 1
  | .profileFormat, format => if format = 1 then 1 else 0
  | _, _ => 0

end ColourPipeline
