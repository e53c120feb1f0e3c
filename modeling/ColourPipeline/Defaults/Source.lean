import ColourPipeline.Config
import ColourPipeline.Defaults.Layer

namespace ColourPipeline

structure LayeredDefaults where
  layers : List (String × DefaultsLayer)

namespace LayeredDefaults

def push (d : LayeredDefaults) (name : String) (l : DefaultsLayer) : LayeredDefaults :=
  ⟨d.layers ++ [(name, l)]⟩

def size (d : LayeredDefaults) : Nat := d.layers.length

def isEmpty (d : LayeredDefaults) : Bool := d.layers.isEmpty

def query (d : LayeredDefaults) (registration : Path) (filter : AttributeFilter) : OptionSet :=
  .ofList (d.layers.flatMap fun (_, l) => l.applicable registration filter)

inductive StoredFile where
  | missing
  | unreadable
  | text (s : String)

def ofFiles (stored : String → StoredFile) (config : Config) :
    Except PipelineError LayeredDefaults :=
  let step (d : LayeredDefaults) : String × Option String → Except PipelineError LayeredDefaults
    | (_, none) => .ok d
    | (name, some place) =>
      match stored place with
      | .missing => .ok d
      | .unreadable => .error .file
      | .text s =>
        match DefaultsLayer.read? s with
        | some l => .ok (d.push name l)
        | none => .error .json
  [("system", config.systemPolicy), ("user", config.userPolicy)].foldlM step ⟨[]⟩

end LayeredDefaults

inductive DefaultsSource where
  | layered (d : LayeredDefaults)
  | fixed (s : OptionSet)
  | host (answer : Path → AttributeFilter → OptionSet)

def DefaultsSource.query (registration : Path) (filter : AttributeFilter) :
    DefaultsSource → OptionSet
  | .layered d => d.query registration filter
  | .fixed s => s.filtered filter
  | .host answer => answer registration filter

end ColourPipeline
