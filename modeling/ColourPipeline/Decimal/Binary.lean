namespace ColourPipeline.Decimal

open Float.Model

def unpack (x : Float) : UnpackedFloat :=
  UnpackedFloat.unpack Format.binary64 x.toBits.toBitVec

def toSingle (x : Float) : Float32 :=
  let narrow : UnpackedFloat := match unpack x with
    | .finite sign mantissa exponent _ =>
      UnpackedFloat.round Format.binary32 sign mantissa exponent
    | other => other
  Float32.ofBits (UInt32.ofBitVec (UnpackedFloat.pack Format.binary32 narrow))

def floorScaled (mantissa : Nat) (exponent : Int) : Nat :=
  if 0 ≤ exponent then mantissa * Nat.pow 2 exponent.toNat
  else mantissa / Nat.pow 2 (-exponent).toNat

def ceilScaled (mantissa : Nat) (exponent : Int) : Nat :=
  if 0 ≤ exponent then mantissa * Nat.pow 2 exponent.toNat
  else (mantissa + Nat.pow 2 (-exponent).toNat - 1) / Nat.pow 2 (-exponent).toNat

def floor? (x : Float) : Option Nat :=
  match unpack x with
  | .zero _ => some 0
  | .finite .positive mantissa exponent _ => some (floorScaled mantissa exponent)
  | _ => none

def ceil? (x : Float) : Option Nat :=
  match unpack x with
  | .zero _ => some 0
  | .finite .positive mantissa exponent _ => some (ceilScaled mantissa exponent)
  | _ => none

end ColourPipeline.Decimal
