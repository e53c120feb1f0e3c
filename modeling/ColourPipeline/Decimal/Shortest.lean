import ColourPipeline.Decimal.Digits

namespace ColourPipeline.Decimal

inductive Tie where
  | up
  | even

structure Scaled where
  significand : Nat
  exponent : Int
deriving DecidableEq, Repr

def magnitude (num den : Nat) : Int :=
  if den ≤ num then (digits (num / den)).length
  else 1 - ((digits ((den - 1) / num)).length : Int)

def within (mantissa ulp distance quarters : Nat) : Bool :=
  if mantissa % 2 = 0 then 4 * distance ≤ quarters * ulp else 4 * distance < quarters * ulp

def nearer (tie : Tie) (below past ahead : Nat) : Bool → Bool → Option Nat
  | true, true =>
    if past < ahead then some below
    else if ahead < past then some (below + 1)
    else match tie with
      | .up => some (below + 1)
      | .even => some (if below % 2 = 0 then below else below + 1)
  | true, false => some below
  | false, true => some (below + 1)
  | false, false => none

def room (mantissa : Nat) (exponent : Int) : Nat :=
  if mantissa = Nat.pow 2 52 ∧ -1074 < exponent then 1 else 2

def onGrid (tie : Tie) (mantissa : Nat) (exponent : Int) (grid : Int) : Option Nat :=
  let ulp := Nat.pow 2 exponent.toNat * Nat.pow 10 (-grid).toNat
  let den := Nat.pow 2 (-exponent).toNat * Nat.pow 10 grid.toNat
  let past := mantissa * ulp % den
  nearer tie (mantissa * ulp / den) past (den - past)
    (within mantissa ulp past (room mantissa exponent)) (within mantissa ulp (den - past) 2)

def stripZeros : Nat → Scaled → Scaled
  | 0, s => s
  | fuel + 1, s =>
    if s.significand ≠ 0 ∧ s.significand % 10 = 0 then
      stripZeros fuel ⟨s.significand / 10, s.exponent + 1⟩
    else s

/-- The fewest decimal digits that read back as `mantissa * 2 ^ exponent`, and of those the
nearest. -/
def shortest (tie : Tie) (mantissa : Nat) (exponent : Int) : Scaled :=
  let top := magnitude (mantissa * Nat.pow 2 exponent.toNat) (Nat.pow 2 (-exponent).toNat)
  let found := (List.range 17).findSome? fun (n : Nat) =>
    let grid := top - (n + 1)
    (onGrid tie mantissa exponent grid).map (⟨·, grid⟩)
  stripZeros 17 (found.getD ⟨0, 0⟩)

end ColourPipeline.Decimal
