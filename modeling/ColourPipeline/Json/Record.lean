import ColourPipeline.Json.Basic

namespace ColourPipeline.Json

inductive Field where
  | given (v : Json)
  | absent
  | cut

def fields? (names : List String) : Json → Option (List Field)
  | .obj members => names.mapM fun name =>
    match members.filter (·.1 == name) with
    | [] => some .absent
    | [(_, v)] => some (.given v)
    | _ => none
  | .arr items =>
    if items.length ≤ names.length then
      some (items.map .given ++ List.replicate (names.length - items.length) .cut)
    else none
  | _ => none

namespace Field

variable {α : Type}

def required (read : Json → Option α) : Field → Option α
  | .given v => read v
  | _ => none

def optional (read : Json → Option α) : Field → Option (Option α)
  | .given .null => some none
  | .given v => (read v).map some
  | .absent => some none
  | .cut => none

def withDefault (fallback : α) (read : Json → Option α) : Field → Option α
  | .given v => read v
  | _ => some fallback

def optionalWithDefault (fallback : Option α) (read : Json → Option α) :
    Field → Option (Option α)
  | .given .null => some none
  | .given v => (read v).map some
  | _ => some fallback

end Field

def bool? : Json → Option Bool
  | .bool b => some b
  | _ => none

def str? : Json → Option String
  | .str s => some s
  | _ => none

def nat? (bound : Nat) : Json → Option Nat
  | .int z => if 0 ≤ z ∧ z < bound then some z.toNat else none
  | _ => none

def int64? : Json → Option Int64
  | .int z =>
    if Int64.minValue.toInt ≤ z ∧ z ≤ Int64.maxValue.toInt then some (Int64.ofInt z) else none
  | _ => none

def wholeFloat (z : Int) : Float :=
  if z < 0 then -(UInt64.ofNat z.natAbs).toFloat else (UInt64.ofNat z.natAbs).toFloat

def float? : Json → Option Float
  | .int z => some (wholeFloat z)
  | .float x => some x
  | _ => none

def list? {α : Type} (read : Json → Option α) : Json → Option (List α)
  | .arr items => items.mapM read
  | _ => none

def choice? {α : Type} (name? : String → Option α) : Json → Option α
  | .str s => name? s
  | .obj [(s, .null)] => name? s
  | _ => none

end ColourPipeline.Json
