import ColourPipeline.Decimal.Digits
import ColourPipeline.Json.Basic
import ColourPipeline.Width

namespace ColourPipeline.Json

structure Numeral where
  negative : Bool
  whole : List Char
  fraction : Option (List Char)
  exponent : Option (Bool × List Char)

namespace Numeral

def someDigits (cs : List Char) : Option (List Char × List Char) :=
  match cs.takeWhile Decimal.isDigit with
  | [] => none
  | ds => some (ds, cs.dropWhile Decimal.isDigit)

def scanWhole : List Char → Option (List Char × List Char)
  | '0' :: cs =>
    match cs with
    | c :: _ => if Decimal.isDigit c then none else some (['0'], cs)
    | [] => some (['0'], [])
  | cs => someDigits cs

def scanFraction : List Char → Option (Option (List Char) × List Char)
  | '.' :: cs => (someDigits cs).map fun (ds, rest) => (some ds, rest)
  | cs => some (none, cs)

def scanPower : List Char → Option ((Bool × List Char) × List Char)
  | '-' :: cs => (someDigits cs).map fun (ds, rest) => ((true, ds), rest)
  | '+' :: cs => (someDigits cs).map fun (ds, rest) => ((false, ds), rest)
  | cs => (someDigits cs).map fun (ds, rest) => ((false, ds), rest)

def scanExponent : List Char → Option (Option (Bool × List Char) × List Char)
  | 'e' :: cs | 'E' :: cs => (scanPower cs).map fun (p, rest) => (some p, rest)
  | cs => some (none, cs)

def scanUnsigned (negative : Bool) (cs : List Char) : Option (Numeral × List Char) := do
  let (whole, cs) ← scanWhole cs
  let (fraction, cs) ← scanFraction cs
  let (exponent, cs) ← scanExponent cs
  pure (⟨negative, whole, fraction, exponent⟩, cs)

def scan : List Char → Option (Numeral × List Char)
  | '-' :: cs => scanUnsigned true cs
  | cs => scanUnsigned false cs

def takeIn (n : Nat) : List Char → Nat × Nat
  | [] => (n, 0)
  | c :: cs =>
    let m := 10 * n + Decimal.digitValue c
    if m < Width.long then takeIn m cs else (n, cs.length + 1)

def powerOfTen (n : Nat) : Float := Float.ofScientific 1 false n

def scale (significand : Nat) (power : Int) : Option Float :=
  let x := (UInt64.ofNat significand).toFloat
  if 308 < power then if significand = 0 then some x else none
  else if 0 ≤ power then
    let y := x * powerOfTen power.toNat
    if y.isInf then none else some y
  else if -308 ≤ power then some (x / powerOfTen (-power).toNat)
  else if -616 ≤ power then some (x / powerOfTen 308 / powerOfTen (-power - 308).toNat)
  else some 0

def signed (t : Numeral) (x : Float) : Float := if t.negative then -x else x

def scaled (t : Numeral) (significand : Nat) (power : Int) : Json :=
  match scale significand power with
  | some x => .float (t.signed x)
  | none => .unreadable

def value (t : Numeral) : Json :=
  let (n, excess) := takeIn 0 t.whole
  match t.fraction, t.exponent with
  | none, none =>
    if excess ≠ 0 then t.scaled n excess
    else if !t.negative then .int n
    else if n = 0 ∨ Width.long < 2 * n then t.scaled n 0
    else .int (-n)
  | fraction, exponent =>
    let ds := fraction.getD []
    let (n, left) := takeIn n ds
    let point : Int := excess - (ds.length - left)
    match exponent with
    | none => t.scaled n point
    | some (minus, es) =>
      let e := Decimal.ofDigits es
      if 2 * e < Width.word then t.scaled n (if minus then point - e else point + e)
      else if n = 0 ∨ minus then .float (t.signed 0)
      else .unreadable

end Numeral

end ColourPipeline.Json
