import ColourPipeline.Json.Reader
import ColourPipeline.Json.Record
import ColourPipeline.Json.Writer
import ColourPipeline.Options.Set

namespace ColourPipeline

namespace OptionValue

def toJson : OptionValue → Json
  | .int n => .obj [("int", .int n.toInt)]
  | .double x => .obj [("double", .float x)]
  | .text s => .obj [("text", .str s)]
  | .profiles names => .obj [("profiles", .arr (names.map .str))]

def ofJson? : Json → Option OptionValue
  | .obj [(kind, v)] =>
    if kind = "int" then v.int64?.map .int
    else if kind = "double" then v.float?.map .double
    else if kind = "text" then v.str?.map .text
    else if kind = "profiles" then (Json.list? Json.str? v).map .profiles
    else none
  | _ => none

end OptionValue

namespace OptionSource

def toJson (s : OptionSource) : Json := .str s.name

def ofJson? (v : Json) : Option OptionSource := v.choice? ofName?

end OptionSource

namespace OptionFlags

def toJson (f : OptionFlags) : Json :=
  .obj [("locked", .bool f.locked), ("automatic", .bool f.automatic),
    ("advanced", .bool f.advanced), ("front", .bool f.front)]

def ofJson? (v : Json) : Option OptionFlags := do
  let flag (f : Json.Field) := f.withDefault false Json.bool?
  match ← v.fields? ["locked", "automatic", "advanced", "front"] with
  | [locked, automatic, advanced, front] =>
    pure ⟨← flag locked, ← flag automatic, ← flag advanced, ← flag front⟩
  | _ => none

end OptionFlags

namespace OptionEntry

def toJson (e : OptionEntry) : Json :=
  .obj [("registration", .str e.registration), ("value", e.value.toJson),
    ("source", e.source.toJson), ("flags", e.flags.toJson)]

def ofJson? (v : Json) : Option OptionEntry := do
  match ← v.fields? ["registration", "value", "source", "flags"] with
  | [registration, value, source, flags] =>
    pure {
      registration := ← registration.required Json.str?
      value := ← value.required OptionValue.ofJson?
      source := ← source.withDefault .none OptionSource.ofJson?
      flags := ← flags.withDefault {} OptionFlags.ofJson? }
  | _ => none

end OptionEntry

namespace OptionSet

def toJson (s : OptionSet) : Json := .arr (s.entries.map (·.toJson))

def ofJson? (v : Json) : Option OptionSet := (Json.list? OptionEntry.ofJson? v).map ofList

def read? (text : String) : Option OptionSet := (Json.parse text).bind ofJson?

def compactText (s : OptionSet) : String := s.toJson.compact

def text (s : OptionSet) : String := s.toJson.pretty

end OptionSet

end ColourPipeline
