import ColourPipeline.Options.Json
import ColourPipeline.Registration

namespace ColourPipeline

inductive DefaultSpec where
  | plain (v : Json)
  | detailed (v : Json) (advanced front locked : Bool)

abbrev NameMap (α : Type) := List (String × α)

namespace NameMap

variable {α : Type}

def find? (name : String) (m : NameMap α) : Option α := (List.find? (·.1 == name) m).map (·.2)

def insert (name : String) (a : α) : NameMap α → NameMap α
  | [] => [(name, a)]
  | (k, b) :: rest =>
    if name = k then (k, a) :: rest
    else if name < k then (name, a) :: (k, b) :: rest
    else (k, b) :: insert name a rest

def ofList (members : List (String × α)) : NameMap α :=
  members.foldl (fun m (k, a) => insert k a m) []

end NameMap

namespace DefaultSpec

mutual

def sorted : Json → Json
  | .arr items => .arr (sortedItems items)
  | .obj members => .obj (NameMap.ofList (sortedMembers members))
  | v => v

def sortedItems : List Json → List Json
  | [] => []
  | v :: vs => sorted v :: sortedItems vs

def sortedMembers : List (String × Json) → List (String × Json)
  | [] => []
  | (k, v) :: ms => (k, sorted v) :: sortedMembers ms

end

def attributeNames : List String := ["value", "advanced", "front", "locked"]

def detailed? : Json → Option DefaultSpec
  | .obj members => do
    let flag (f : Json.Field) := f.withDefault false Json.bool?
    match ← (Json.obj members).fields? attributeNames with
    | [value, advanced, front, locked] =>
      pure (.detailed (← value.required (fun v => some (sorted v)))
        (← flag advanced) (← flag front) (← flag locked))
    | _ => none
  | _ => none

def ofJson (v : Json) : DefaultSpec := (detailed? v).getD (.plain (sorted v))

def toJson : DefaultSpec → Json
  | .plain v => v
  | .detailed v advanced front locked =>
    .obj [("value", v), ("advanced", .bool advanced), ("front", .bool front),
      ("locked", .bool locked)]

def option? : Json → Option OptionValue
  | .bool b => some (.int (if b then 1 else 0))
  | .int z =>
    some (if z ≤ Int64.maxValue.toInt then .int (Int64.ofInt z) else .double (Json.wholeFloat z))
  | .float x => some (.double x)
  | .str s => some (.text s)
  | .arr items => (items.mapM Json.str?).map .profiles
  | _ => none

def value : DefaultSpec → Json
  | .plain v => v
  | .detailed v _ _ _ => v

def flags : DefaultSpec → OptionFlags
  | .plain _ => {}
  | .detailed _ advanced front locked => { advanced, front, locked }

def entry? (spec : DefaultSpec) (registration : Path) (key : String) : Option OptionEntry :=
  (option? spec.value).map fun value =>
    { registration := (registration.join key).text, value, source := .defaults,
      flags := spec.flags }

end DefaultSpec

structure DefaultsLayer where
  patterns : NameMap (NameMap DefaultSpec)

namespace DefaultsLayer

def empty : DefaultsLayer := ⟨[]⟩

def isEmpty (l : DefaultsLayer) : Bool := l.patterns.isEmpty

def maxDepth : Nat := 127

def keysOfJson? : Json → Option (NameMap DefaultSpec)
  | .obj members => some (NameMap.ofList (members.map fun (k, v) => (k, DefaultSpec.ofJson v)))
  | _ => none

def ofJson? (v : Json) : Option DefaultsLayer :=
  if !v.readable || maxDepth < v.depth then none
  else match v with
    | .obj members => do
      let patterns ← members.mapM fun (k, v) => (keysOfJson? v).map (k, ·)
      pure ⟨NameMap.ofList patterns⟩
    | _ => none

def read? (text : String) : Option DefaultsLayer := (Json.parse text).bind ofJson?

def toJson (l : DefaultsLayer) : Json :=
  .obj (l.patterns.map fun (k, keys) => (k, .obj (keys.map fun (k, spec) => (k, spec.toJson))))

def insert (l : DefaultsLayer) (pattern key : String) (v : Json) : DefaultsLayer :=
  let keys := (l.patterns.find? pattern).getD []
  ⟨l.patterns.insert pattern (keys.insert key (.plain v))⟩

def specs (l : DefaultsLayer) : List (String × String × DefaultSpec) :=
  l.patterns.flatMap fun (pattern, keys) => keys.map fun (key, spec) => (pattern, key, spec)

def applicable (l : DefaultsLayer) (registration : Path) (filter : AttributeFilter) :
    List OptionEntry :=
  l.specs.filterMap fun (pattern, key, spec) =>
    if (Path.parse pattern).selects registration then
      (spec.entry? registration key).filter (filter.admits ·.flags)
    else none

end DefaultsLayer

end ColourPipeline
