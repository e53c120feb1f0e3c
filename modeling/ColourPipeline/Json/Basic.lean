namespace ColourPipeline

/-- A JSON value. Whole numbers within 64 bits keep their exact value. `unreadable` stands for a
well-formed part that denotes nothing: a number out of range, a text with half a surrogate
pair, a record with such a name. -/
inductive Json where
  | null
  | bool (b : Bool)
  | int (z : Int)
  | float (x : Float)
  | str (s : String)
  | arr (items : List Json)
  | obj (members : List (String × Json))
  | unreadable

namespace Json

mutual

def readable : Json → Bool
  | .arr items => readableItems items
  | .obj members => readableMembers members
  | .unreadable => false
  | _ => true

def readableItems : List Json → Bool
  | [] => true
  | v :: vs => v.readable && readableItems vs

def readableMembers : List (String × Json) → Bool
  | [] => true
  | (_, v) :: ms => v.readable && readableMembers ms

end

mutual

def depth : Json → Nat
  | .arr items => depthItems items + 1
  | .obj members => depthMembers members + 1
  | _ => 0

def depthItems : List Json → Nat
  | [] => 0
  | v :: vs => max v.depth (depthItems vs)

def depthMembers : List (String × Json) → Nat
  | [] => 0
  | (_, v) :: ms => max v.depth (depthMembers ms)

end

def ofOption {α : Type} (f : α → Json) : Option α → Json
  | none => .null
  | some a => f a

end Json

end ColourPipeline
