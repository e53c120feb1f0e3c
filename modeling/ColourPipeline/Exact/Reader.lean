import ColourPipeline.Cache.Entity
import ColourPipeline.Connector
import ColourPipeline.Defaults.Source
import ColourPipeline.Json.Record
import ColourPipeline.Provider.Registry
import ColourPipeline.Tag
import ColourPipeline.Ticket

/-! Values from JSON in which floats may be given by their bits. -/

namespace ColourPipeline.Exact

def given? (v : Json) (name : String) : Option Json :=
  match v with
  | .obj ms => ms.lookup name
  | _ => none

def get? (v : Json) (name : String) : Option Json :=
  (given? v name).filter fun
    | .null => false
    | _ => true

def text? (v : Json) (name : String) : Option String := (get? v name).bind Json.str?

def textOr (v : Json) (name fallback : String) : String := (text? v name).getD fallback

def flag (v : Json) (name : String) : Bool := ((get? v name).bind Json.bool?).getD false

def nat? (v : Json) (name : String) : Option Nat := (get? v name).bind (Json.nat? Width.long)

def natOr (v : Json) (name : String) (fallback : Nat) : Nat := (nat? v name).getD fallback

def int? (v : Json) (name : String) : Option Int :=
  match get? v name with
  | some (.int z) => some z
  | _ => none

def items? (v : Json) (name : String) : Option (List Json) := (get? v name).bind (Json.list? some)

def items (v : Json) (name : String) : List Json := (items? v name).getD []

def bytes? (v : Json) (name : String) : Option Bytes := (text? v name).bind Text.Hex.decode?

def maybe {α : Type} (read : Json → Option α) (v : Json) (name : String) : Option (Option α) :=
  match get? v name with
  | none => some none
  | some a => (read a).map some

def float? : Json → Option Float
  | .str "nan" => some (0 / 0)
  | .str "inf" => some (1 / 0)
  | .str "-inf" => some (-1 / 0)
  | .str s => match s.toList with
    | '0' :: 'x' :: cs => (Text.Hex.number? cs).map fun n => Float.ofBits (UInt64.ofNat n)
    | _ => none
  | v => v.float?

def single? (v : Json) : Option Float32 := (float? v).map Decimal.toSingle

def word? : Json → Option Nat := Json.nat? Width.word

def point? : Json → Option (Nat × Nat)
  | .arr [x, y] => do pure (← word? x, ← word? y)
  | _ => none

def value? : Json → Option OptionValue
  | .obj [("int", n)] => n.int64?.map .int
  | .obj [("double", x)] => (float? x).map .double
  | .obj [("text", s)] => s.str?.map .text
  | .obj [("profiles", ps)] => (Json.list? Json.str? ps).map .profiles
  | _ => none

def names? : Json → Option (List String) := Json.list? Json.str?

def flags? (v : Json) : Option OptionFlags := do
  let names ← names? v
  pure ⟨names.contains "locked", names.contains "automatic", names.contains "advanced",
    names.contains "front"⟩

def entry? (v : Json) : Option OptionEntry := do
  pure {
    registration := ← text? v "reg"
    value := ← (get? v "value").bind value?
    source := ← match get? v "source" with
      | some s => s.str?.bind OptionSource.ofName?
      | none => some .none
    flags := ← match get? v "flags" with
      | some f => flags? f
      | none => some {} }

def options? (v : Json) (name : String) : Option OptionSet :=
  match get? v name with
  | none => some .empty
  | some es => (Json.list? entry? es).map .ofList

def filter? (v : Json) : Option AttributeFilter :=
  match get? v "filter" with
  | none => some .all
  | some f => (names? f).map fun ns => ⟨ns.contains "advanced", ns.contains "front"⟩

def rectangle? : Json → Option Rectangle
  | .arr [x, y, w, h] => do pure ⟨← float? x, ← float? y, ← float? w, ← float? h⟩
  | _ => none

def caps (v : Json) : ConnectorCaps :=
  ⟨flag v "planar", flag v "interleaved", flag v "swap", flag v "swap_bytes", flag v "revert",
    flag v "premultiplied_alpha", flag v "nonpremultiplied_alpha", flag v "subpixel"⟩

def plainConnector? (s : String) : Option Connector :=
  match s.toList with
  | 'd' :: 'a' :: 't' :: 'a' :: ':' :: name => some (.data (String.ofList name))
  | 'c' :: 'o' :: 'n' :: 't' :: 'r' :: 'o' :: 'l' :: ':' :: name =>
    some (.control (String.ofList name))
  | _ => none

def change {α : Type} (told : Option Json) (f : Json → α → Option α) (a : α) : Option α :=
  match told with
  | some b => f b a
  | none => some a

def bound? : Json → Option (Option Nat)
  | .null => some none
  | v => (word? v).map some

def connector? : Json → Option Connector
  | .str s => plainConnector? s
  | v => do
    let c ← (text? v "base").bind plainConnector?
    let c ← change (get? v "channels")
      (fun b c => (point? b).map fun (i, j) => c.withChannels i j) c
    let c ← change (get? v "caps") (fun b c => some { c with caps := caps b }) c
    let c := if flag v "optional" then { c with mandatory := false } else c
    let c ← change (get? v "category") (fun b c => b.str?.map fun s => { c with category := s }) c
    let c ← change (given? v "min")
      (fun b c => (bound? b).map fun n => { c with minChannels := n }) c
    change (given? v "max") (fun b c => (bound? b).map fun n => { c with maxChannels := n }) c

def layer? (v : Json) : Option (Except PipelineError (String × DefaultsLayer)) := do
  let start : Except PipelineError DefaultsLayer := match text? v "text" with
    | some s => match DefaultsLayer.read? s with
      | some l => .ok l
      | none => .error .json
    | none => .ok .empty
  let inserts ← (items v "inserts").mapM fun
    | .arr [.str pattern, .str key, value] => some (pattern, key, DefaultSpec.sorted value)
    | _ => none
  pure (start.map fun l =>
    (textOr v "name" "", inserts.foldl (fun l (p, k, j) => l.insert p k j) l))

def layers? (v : Json) : Option (Except PipelineError LayeredDefaults) := do
  let ls ← (← items? v "layers").mapM layer?
  pure (do pure ⟨← ls.mapM id⟩)

def pixel? : Json → Option Pixel
  | .arr [r, g, b, a] => do pure ⟨← single? r, ← single? g, ← single? b, ← single? a⟩
  | _ => none

def layout? (v : Json) : Option PixelLayout :=
  match get? v "layout" with
  | some l => PixelLayout.ofJson? l
  | none => some {}

def descriptor? (v : Json) : Option ImageDescriptor := do
  pure ⟨← nat? v "w", ← nat? v "h", ← layout? v⟩

def image? (v : Json) : Option (Except PipelineError Image) := do
  let w ← nat? v "w"
  let h ← nat? v "h"
  match get? v "pixels", get? v "fill" with
  | some ps, _ => do pure (Image.ofPixels w h (← layout? v) (← Json.list? pixel? ps))
  | none, some p => do pure (.ok (.filled w h (← pixel? p)))
  | none, none =>
    pure (.ok (.ofFn w h fun x y =>
      ⟨Float32.ofNat x, Float32.ofNat y, Float32.ofNat (y * w + x) * 0.125, 1⟩))

def ticket? (v : Json) : Option Ticket := do
  let roi ← maybe rectangle? v "roi"
  let perCall := UInt64.ofNat (natOr v "ppc" 0)
  let workspace := (int? v "workspace").getD 0
  match ← maybe descriptor? v "output" with
  | some d =>
    if flag v "for_image" then pure (.ofImage d)
    else pure { Ticket.ofRegion roi perCall with output := d, workspace }
  | none => pure { Ticket.ofRegion roi perCall with workspace }

def record? : Json → Option TagRecord
  | .obj [("text", .str s)] => some (.text s)
  | .obj [("signature", n)] => (word? n).map fun n => .signature (UInt32.ofNat n)
  | _ => none

def kind (label : String) : ObjectKind :=
  ([.stage, .conversion, .ticket, .cacheSlot, .provider, .image, .array, .profile,
    .transform].find? (·.label == label)).getD (.custom label)

def category? (v : Json) (name : String) : Option ProviderCategory := do
  let s ← text? v name
  ProviderCategory.all.find? (·.name == s)

def version? (v : Json) : Option Version :=
  match get? v "version" with
  | some (.arr [a, b, c]) => do pure ⟨← word? a, ← word? b, ← word? c⟩
  | some _ => none
  | none => some ⟨0, 0, 0⟩

end ColourPipeline.Exact
