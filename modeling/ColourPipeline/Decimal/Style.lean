import ColourPipeline.Decimal.Binary
import ColourPipeline.Decimal.Shortest

namespace ColourPipeline.Decimal

structure Style where
  tie : Tie
  positional : Int → Bool
  wholeEnd : List Char

namespace Style

def message : Style where
  tie := .up
  positional _ := true
  wholeEnd := []

def document : Style where
  tie := .even
  positional point := -4 ≤ point && point ≤ 16
  wholeEnd := ['.', '0']

def place (style : Style) (ds : List Char) (point : Int) : List Char :=
  if point ≤ 0 then '0' :: '.' :: (List.replicate (-point).toNat '0' ++ ds)
  else if (ds.length : Int) ≤ point then
    ds ++ List.replicate (point.toNat - ds.length) '0' ++ style.wholeEnd
  else ds.take point.toNat ++ '.' :: ds.drop point.toNat

def withExponent (ds : List Char) (power : Int) : List Char :=
  let fraction := match ds.drop 1 with
    | [] => []
    | rest => '.' :: rest
  ds.take 1 ++ fraction ++ 'e' :: (if power < 0 then '-' else '+') :: digits power.natAbs

def scaled (style : Style) (s : Scaled) : List Char :=
  let ds := digits s.significand
  let point := ds.length + s.exponent
  if style.positional point then style.place ds point else withExponent ds (point - 1)

def signed (sign : Float.Model.UnpackedFloat.Sign) (cs : List Char) : List Char :=
  match sign with
  | .negative => '-' :: cs
  | .positive => cs

def chars (style : Style) (x : Float) : List Char :=
  match unpack x with
  | .notANumber => ['N', 'a', 'N']
  | .infinity sign => signed sign ['i', 'n', 'f']
  | .zero sign => signed sign ('0' :: style.wholeEnd)
  | .finite sign mantissa exponent _ =>
    signed sign (style.scaled (shortest style.tie mantissa exponent))

end Style

def floatText (x : Float) : String := String.ofList (Style.message.chars x)

end ColourPipeline.Decimal
