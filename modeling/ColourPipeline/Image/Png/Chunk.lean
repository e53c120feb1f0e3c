import ColourPipeline.Bytes

namespace ColourPipeline.Png

def crcStep : Nat → UInt32 → UInt32
  | 0, c => c
  | n + 1, c => crcStep n (if c &&& 1 = 1 then (c >>> 1) ^^^ 0xEDB88320 else c >>> 1)

def crc (bs : Bytes) : UInt32 :=
  bs.foldl (fun c b => crcStep 8 (c ^^^ b.toUInt32)) 0xFFFFFFFF ^^^ 0xFFFFFFFF

structure Chunk where
  type : Bytes
  data : Bytes
  sound : Bool

def headerType : Bytes := [0x49, 0x48, 0x44, 0x52]

def paletteType : Bytes := [0x50, 0x4c, 0x54, 0x45]

def transparencyType : Bytes := [0x74, 0x52, 0x4e, 0x53]

def dataType : Bytes := [0x49, 0x44, 0x41, 0x54]

def frameDataType : Bytes := [0x66, 0x64, 0x41, 0x54]

def chunk? (bs : Bytes) : Option (Chunk × Bytes) :=
  let length := Bytes.number (bs.take 4)
  let body := Bytes.slice bs 4 (4 + length)
  let check := Bytes.slice bs (8 + length) 4
  if check.length = 4 then
    some (⟨body.take 4, body.drop 4, crc body = Bytes.word check 0⟩, bs.drop (12 + length))
  else none

def Chunk.isCritical (c : Chunk) : Bool := c.type.head?.any (·.toNat / 32 % 2 == 0)

end ColourPipeline.Png
