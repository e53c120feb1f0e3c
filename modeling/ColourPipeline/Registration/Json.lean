import ColourPipeline.Json.Record
import ColourPipeline.Kind
import ColourPipeline.Registration

namespace ColourPipeline

namespace Segment

def toJson (s : Segment) : Json := .obj [("keys", .arr (s.keys.map .str))]

def ofJson? (v : Json) : Option Segment := do
  match ← v.fields? ["keys"] with
  | [keys] => pure ⟨← keys.required (Json.list? Json.str?)⟩
  | _ => none

end Segment

namespace Path

def toJson (p : Path) : Json := .str p.text

def ofJson? (v : Json) : Option Path := v.str?.map parse

end Path

namespace ProviderCategory

def toJson (c : ProviderCategory) : Json := .str c.name

def ofName? (s : String) : Option ProviderCategory := all.find? (·.name == s)

def ofJson? (v : Json) : Option ProviderCategory := v.choice? ofName?

end ProviderCategory

end ColourPipeline
