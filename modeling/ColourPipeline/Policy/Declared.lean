import ColourPipeline.Options.Set

namespace ColourPipeline.Policy

def keys : List String :=
  ["proof_soft", "proof_hard", "rendering_intent", "rendering_bpc", "rendering_intent_proof",
    "rendering_gamut_warning", "rendering_high_precision"]

def simulationKey : String := "profiles_simulation"

def proofKey : String := "profile_proof"

def stagePattern : String := "//colour/icc"

def root : String := "org/tincture/colour/icc"

def profileDefaults : List (String × String) :=
  [("editing_rgb", "eciRGB_v2.icc"),
    ("editing_cmyk", "coated_FOGRA39L_argl.icc"),
    ("editing_gray", "Gray.icc"),
    ("editing_lab", "Lab.icc"),
    ("editing_xyz", "XYZ.icc"),
    ("assumed_rgb", "eciRGB_v2.icc"),
    ("assumed_cmyk", "coated_FOGRA39L_argl.icc"),
    ("assumed_gray", "Gray.icc"),
    ("assumed_lab", "Lab.icc"),
    ("assumed_xyz", "XYZ.icc")]

structure Behaviour where
  key : String
  value : Int64
  advanced : Bool
  front : Bool

def behaviourDefaults : List Behaviour :=
  [⟨"action_untagged_assign", 1, false, true⟩,
    ⟨"action_mismatch_cmyk", 1, false, true⟩,
    ⟨"action_mismatch_rgb", 1, false, true⟩,
    ⟨"mixed_colour_spaces_print_doc_convert", 1, false, true⟩,
    ⟨"mixed_colour_spaces_screen_doc_convert", 2, false, true⟩,
    ⟨"proof_hard", 0, true, true⟩,
    ⟨"proof_soft", 0, true, true⟩,
    ⟨"rendering_intent", 0, false, false⟩,
    ⟨"rendering_bpc", 1, false, false⟩,
    ⟨"rendering_intent_proof", 0, false, false⟩,
    ⟨"rendering_gamut_warning", 0, true, false⟩,
    ⟨"rendering_high_precision", 0, true, false⟩]

def declared : OptionSet :=
  .ofList ((profileDefaults.map fun (key, profile) =>
      { registration := root ++ "/profile/" ++ key, value := .text profile, source := .filter,
        flags := { front := true } }) ++
    (behaviourDefaults.map fun b =>
      { registration := root ++ "/behaviour/" ++ b.key, value := .int b.value, source := .filter,
        flags := { advanced := b.advanced, front := b.front } }) ++
    [{ registration := root ++ "/profile/" ++ proofKey,
       value := .text "coated_FOGRA39L_argl.icc", source := .filter }])

end ColourPipeline.Policy
