import ColourPipeline.Image.Png.Chunk
import ColourPipeline.Width

namespace ColourPipeline.Png

def dataChunks? : Nat → Bytes → Option (List Bytes)
  | 0, _ => none
  | fuel + 1, bs =>
    if Bytes.slice bs 4 4 ≠ dataType then
      if bs.length < 8 then none else some []
    else do
      let (c, rest) ← chunk? bs
      if c.sound then (dataChunks? fuel rest).map (c.data :: ·) else none

def fewCodes (head : UInt8) (bs : Bytes) : Bool :=
  bs.length < 2 || (head.toNat / 8 < 30 && (bs.headD 0).toNat % 32 < 30)

def stored? (room : Nat) : Bytes → Option Bytes
  | [] => some []
  | head :: bs =>
    let length := Bytes.numberLittle (bs.take 2)
    let inverse := Bytes.numberLittle (Bytes.slice bs 2 2)
    let data := Bytes.slice bs 4 (min length room)
    match head.toNat / 2 % 4 with
    | 0 =>
      if bs.length < 4 then some []
      else if length + inverse ≠ Width.short - 1 then none
      else if head.toNat % 2 = 1 ∨ data.length < length then some data
      else (stored? (room - length) (bs.drop (4 + length))).map (data ++ ·)
    | 1 => if room = 0 then some [] else none
    | 2 => if room = 0 ∧ fewCodes head bs then some [] else none
    | _ => none
termination_by bs => bs.length
decreasing_by
  rw [List.length_drop, List.length_cons]
  omega

def inflated? (room : Nat) : Bytes → Option Bytes
  | a :: b :: rest =>
    if a.toNat % 16 = 8 ∧ a.toNat / 16 ≤ 7 ∧ (256 * a.toNat + b.toNat) % 31 = 0 ∧
        b.toNat / 32 % 2 = 0 then
      stored? room rest
    else none
  | _ => some []

def content? (size : Nat) : Bytes → List Bytes → Option Bytes
  | _, [] => none
  | seen, part :: parts => do
    let data ← inflated? size (seen ++ part)
    if data.length = size then some data else content? size (seen ++ part) parts

def rows? (length : Nat) : Nat → Bytes → Option Bytes
  | 0, _ => some []
  | n + 1, 0 :: bs =>
    if bs.length < length then none
    else (rows? length n (bs.drop length)).map (bs.take length ++ ·)
  | _ + 1, _ => none

end ColourPipeline.Png
