import ColourPipeline.Connector
import ColourPipeline.Json.Reader

namespace ColourPipeline

structure Config where
  policyPattern : String := "//colour/icc"
  dataCategory : String := ColourPipeline.dataCategory
  systemPolicy : Option String := none
  userPolicy : Option String := none
  verbose : Bool := false
  maxRenderPasses : Nat := 0x1000000
deriving DecidableEq, Repr

namespace Config

def builtin : Config := {}

def below (directory file : String) : String :=
  if directory = "" ∨ directory.toList.getLast? = some '/' then directory ++ file
  else directory ++ "/" ++ file

def directory? (lookup : String → Option String) : Option String :=
  match lookup "XDG_CONFIG_HOME", lookup "HOME" with
  | some base, _ => some (below base "tincture")
  | none, some home => some (below home ".config/tincture")
  | none, none => none

def ofEnvironment (lookup : String → Option String) : Config where
  policyPattern :=
    ((lookup "TINCTURE_POLICY_PATTERN").filter (· ≠ "")).getD builtin.policyPattern
  systemPolicy := lookup "TINCTURE_SYSTEM_POLICY"
  userPolicy :=
    (lookup "TINCTURE_USER_POLICY").or
      ((directory? lookup).map (below · "policy.json"))
  verbose := (lookup "TINCTURE_VERBOSE").isSome
  maxRenderPasses :=
    (((lookup "TINCTURE_MAX_RENDER_PASSES").bind (Decimal.nat? ·.toList)).filter
      (· < Width.long)).getD builtin.maxRenderPasses

def ofJson? (fallback : Config) (v : Json) : Option Config := do
  match ← v.fields? ["policy_pattern", "data_category", "system_policy", "user_policy",
      "verbose", "max_render_passes"] with
  | [policyPattern, dataCategory, systemPolicy, userPolicy, verbose, maxRenderPasses] =>
    pure {
      policyPattern := ← policyPattern.withDefault fallback.policyPattern Json.str?
      dataCategory := ← dataCategory.withDefault fallback.dataCategory Json.str?
      systemPolicy := ← systemPolicy.optionalWithDefault fallback.systemPolicy Json.str?
      userPolicy := ← userPolicy.optionalWithDefault fallback.userPolicy Json.str?
      verbose := ← verbose.withDefault fallback.verbose Json.bool?
      maxRenderPasses :=
        ← maxRenderPasses.withDefault fallback.maxRenderPasses (Json.nat? Width.long) }
  | _ => none

def read? (fallback : Config) (text : String) : Option Config :=
  (Json.parse text).bind (ofJson? fallback)

end Config

end ColourPipeline
