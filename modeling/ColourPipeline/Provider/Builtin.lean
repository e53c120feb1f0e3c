import ColourPipeline.Provider.Registry

namespace ColourPipeline

def Filter.imageRoot : Filter where
  plugs := []
  sockets := [.data "image"]
  role := .source

def Filter.imageOutput : Filter where
  plugs := [.data "image"]
  sockets := []
  role := .output

def Filter.gain : Filter where
  plugs := [.data "in"]
  sockets := [.data "out"]
  defaults := .ofList
    [{ registration := "org/tincture/colour/icc.transform/gain", value := .double 1,
       source := .filter }]
  role := .transform

namespace Registry

def builtinVersion : Version := ⟨0, 1, 0⟩

def builtinServices : List (String × Service) :=
  [("org/tincture/colour/icc.policy", .policy {}),
    ("org/tincture/colour/image.root", .filter .imageRoot),
    ("org/tincture/colour/icc.transform", .filter .gain),
    ("org/tincture/colour/image.output", .filter .imageOutput),
    ("org/tincture/colour/icc.blob", .profiles),
    ("org/tincture/colour/tag.text", .tags)]

def registerBuiltin (r : Registry) : Except PipelineError Registry :=
  builtinServices.foldlM (fun r (name, s) => r.register name builtinVersion s) r

end Registry

end ColourPipeline
