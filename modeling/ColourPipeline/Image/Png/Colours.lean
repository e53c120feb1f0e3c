import ColourPipeline.Image.Png.Chunk
import ColourPipeline.Image.Samples

namespace ColourPipeline.Png

inductive Coding where
  | indexed
  | direct (m : ColourModel)
deriving DecidableEq, Repr

namespace Coding

def ofCode? (depth : BitDepth) : Nat → Option Coding
  | 0 => some (.direct .grey)
  | 2 => some (.direct .rgb)
  | 3 => if depth = .u8 then some .indexed else none
  | 4 => some (.direct .greyAlpha)
  | 6 => some (.direct .rgbAlpha)
  | _ => none

def channels : Coding → Nat
  | .indexed => 1
  | .direct m => m.channels

end Coding

structure Colours where
  palette : Option Bytes := none
  transparent : Option Bytes := none

namespace Colours

def key? (depth : BitDepth) (m : ColourModel) (data : Bytes) : Option Bytes :=
  if m.hasAlpha || data.length < 2 * m.channels then none
  else match depth with
    | .u16 => some data
    | _ => some ((Bytes.chunks 2 (data.take (2 * m.channels))).flatMap (·.drop 1))

def transparency? (depth : BitDepth) (coding : Coding) (k : Colours) (data : Bytes) :
    Option Bytes :=
  match coding with
  | .indexed => k.palette.map fun _ => data
  | .direct m => key? depth m data

def isPalette (data : Bytes) : Bool :=
  data.length % 3 == 0 && 0 < data.length && data.length ≤ 3 * 256

def note? (depth : BitDepth) (coding : Coding) (k : Colours) (c : Chunk) : Option Colours :=
  if c.isCritical then
    if c.sound && c.type == paletteType && isPalette c.data && k.palette.isNone then
      some { k with palette := some c.data }
    else none
  else if c.type = frameDataType then none
  else if c.sound && c.type == transparencyType then
    some { k with transparent := k.transparent.or (k.transparency? depth coding c.data) }
  else some k

def scan? (depth : BitDepth) (coding : Coding) : Nat → Colours → Bytes → Option (Colours × Bytes)
  | 0, _, _ => none
  | fuel + 1, k, bs =>
    if Bytes.slice bs 4 4 = dataType then some (k, bs)
    else do
      let (c, rest) ← chunk? bs
      scan? depth coding fuel (← k.note? depth coding c) rest

def colour (palette : Bytes) (i : Nat) : Bytes :=
  let rgb := Bytes.slice palette (3 * i) 3
  if rgb.length = 3 then rgb else [0, 0, 0]

def alpha (palette alphas : Bytes) (i : Nat) : UInt8 :=
  if alphas.length ≤ palette.length / 3 then alphas.getD i 0xff else 0xff

def resolve (palette : Bytes) (k : Colours) (pixels : Bytes) : ColourModel × Bytes :=
  match k.transparent with
  | none => (.rgb, pixels.flatMap fun i => colour palette i.toNat)
  | some alphas =>
    (.rgbAlpha, pixels.flatMap fun i =>
      colour palette i.toNat ++ [alpha palette alphas i.toNat])

def mask (key : Bytes) (size width : Nat) (pixels : Bytes) : Bytes :=
  (Bytes.chunks size pixels).flatMap fun p =>
    p ++ List.replicate width (if p = key then 0 else 0xff)

def samples? (coding : Coding) (width : Nat) (k : Colours) (pixels : Bytes) :
    Option (ColourModel × Bytes) :=
  match coding with
  | .indexed => k.palette.map fun palette => k.resolve palette pixels
  | .direct m =>
    match k.transparent with
    | none => some (m, pixels)
    | some key => some (m.withAlpha, mask key (m.channels * width) width pixels)

end Colours

end ColourPipeline.Png
