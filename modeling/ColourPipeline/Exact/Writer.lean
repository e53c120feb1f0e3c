import ColourPipeline.Cache.Entity
import ColourPipeline.Config
import ColourPipeline.Options.Set
import ColourPipeline.Policy.Correction
import ColourPipeline.Pull.Pipeline
import ColourPipeline.Tag
import ColourPipeline.Ticket

/-! Values as JSON in which floats are given by their bits, so that two runs can be compared
exactly. -/

namespace ColourPipeline.Exact

def float (x : Float) : Json :=
  if x.isNaN then .str "nan" else .str (String.ofList (Text.Hex.pad 16 x.toBits.toNat))

def single (x : Float32) : Json :=
  if x.isNaN then .str "nan" else .str (String.ofList (Text.Hex.pad 8 x.toBits.toNat))

def nat (n : Nat) : Json := .int n

def text (s : String) : Json := .str s

def list {α : Type} (f : α → Json) (as : List α) : Json := .arr (as.map f)

def texts : List String → Json := list text

def option {α : Type} (f : α → Json) : Option α → Json := Json.ofOption f

def bytes (bs : Bytes) : Json := .str (Text.Hex.encode bs)

def point (p : Nat × Nat) : Json := .arr [nat p.1, nat p.2]

def value : OptionValue → Json
  | .int n => .obj [("int", .int n.toInt)]
  | .double x => .obj [("double", float x)]
  | .text s => .obj [("text", .str s)]
  | .profiles ps => .obj [("profiles", texts ps)]

def flags (f : OptionFlags) : Json :=
  texts (([(f.locked, "locked"), (f.automatic, "automatic"), (f.advanced, "advanced"),
    (f.front, "front")].filter (·.1)).map (·.2))

def entry (e : OptionEntry) : Json :=
  .obj [("reg", .str e.registration), ("value", value e.value), ("source", .str e.source.name),
    ("flags", flags e.flags)]

def options (s : OptionSet) : Json := list entry s.entries

def rectangle (r : Rectangle) : Json := list float [r.x, r.y, r.width, r.height]

def path (p : Path) : Json :=
  .obj [("raw", .str p.text),
    ("segments", list (fun s => .obj [("keys", texts s.keys), ("wildcard", .bool s.isWildcard)])
      p.segments),
    ("floating", .bool p.floating), ("empty", .bool p.isEmpty),
    ("last_head", option (fun s => .str s.head) p.segments.getLast?)]

def pixel (p : Pixel) : Json := list single [p.r, p.g, p.b, p.a]

def array (a : PixelArray) : Json :=
  .obj [("w", nat a.width), ("h", nat a.height),
    if 32 < a.size then ("sha256", bytes (Digest.sha256 a.bytes))
    else ("px", list pixel a.pixels.toList)]

def image (i : Image) : Json :=
  .obj [("descriptor", i.descriptor.toJson), ("px", list pixel (i.pixels.toList.take 64))]

def progress : Progress → Json
  | .advanced => .str "advanced"
  | .completed => .str "completed"
  | .unchanged => .str "unchanged"

def ticket (t : Ticket) : Json :=
  .obj [("cursor", point t.cursor), ("roi", option rectangle t.roi),
    ("ppc", nat t.pixelsPerCall.toNat), ("workspace", .int t.workspace),
    ("output", t.output.toJson), ("origin", point t.origin), ("exhausted", .bool t.exhausted),
    ("array", array t.array)]

def profile (p : Profile) (description : Option String) : Json :=
  .obj [("size", nat p.size), ("version", point p.version),
    ("class", nat p.deviceClass.toNat), ("colour_space", nat p.colourSpace.toNat),
    ("pcs", .str (signatureText p.connectionSpace)), ("digest", bytes p.digest),
    ("summary", .str p.summary), ("description", option text description)]

def record : TagRecord → Json
  | .text s => .obj [("text", .str s)]
  | .signature n => .obj [("signature", nat n.toNat)]

def level : Policy.MessageLevel → Json
  | .debug => .str "debug"
  | .info => .str "info"
  | .warning => .str "warning"
  | .error => .str "error"

def gain (k : Gain) : Json := list single [k.r, k.g, k.b]

def config (c : Config) : Json :=
  .obj [("policy_pattern", .str c.policyPattern), ("data_category", .str c.dataCategory),
    ("system_policy", option text c.systemPolicy), ("user_policy", option text c.userPolicy),
    ("verbose", .bool c.verbose), ("max_render_passes", nat c.maxRenderPasses)]

def envelope (e : Envelope) : Json :=
  .obj [("kind", .str e.kind.label),
    ("names", list (option text) [e.names.nick, e.names.name, e.names.description]),
    ("digest", option bytes e.digest)]

def provider (q : Provider) : List (String × Json) :=
  [("reg", .str q.registration.text), ("category", .str q.category.display),
    ("version", list nat [q.version.major, q.version.minor, q.version.patch])]

def content (type : String) (e : Entity) : Json :=
  match type, e.content with
  | "image", .image i => image i
  | "array", .array a => array a
  | "profile", .profile p => .str p.summary
  | "transform", .transform k => gain k
  | "marker", .custom _ => option text e.envelope.names.nick
  | _, _ => .null

variable (name : StageId → String)

def stage (id : StageId) : Json := .str (name id)

def contact (p : Contact) : Json := .arr [stage name p.stage, nat p.index]

def edge (e : Edge) : Json := .arr [contact name e.plug, contact name e.socket]

def event : Event → Json
  | .ran id socket requestor =>
    .obj [("run", stage name id), ("socket", nat socket), ("from", option (contact name) requestor)]
  | .freed id => .obj [("release", stage name id)]
  | .told m => .obj [("message", .str m.text), ("level", level m.level)]

def state : ConversionState → Json
  | .unbuilt => .str "unbuilt"
  | .built => .str "built"
  | .released => .str "released"

def conversion (c : Conversion) : Json :=
  .obj [("state", state c.state), ("input", option (stage name) c.input),
    ("output", option (stage name) c.output)]

def release (r : ReleaseReport) : Json :=
  .obj [("visited", nat r.visited), ("released", list (stage name) r.released),
    ("retained", list (stage name) r.retained)]

def correction (r : Policy.CorrectionReport) : Json :=
  .obj [("stage", option (stage name) r.stage), ("changed", texts r.changed),
    ("kept", texts r.kept), ("missing", texts r.missing), ("error", .bool r.error)]

def walk (w : Walk) : List (String × Json) :=
  [("len", nat w.nodes.length), ("empty", .bool w.nodes.isEmpty),
    ("nodes", list (stage name) w.nodes), ("edges", list (edge name) w.edges)]

def plug (net : Network) (c : Connector) (p : Contact) : Json :=
  .obj [("name", .str c.name), ("connected", .bool (net.remote? p).isSome),
    ("remote", option (contact name) (net.remote? p))]

def socket (net : Network) (s : Stage) (c : Connector) (p : Contact) : Json :=
  .obj [("name", .str c.name), ("plugs", list (contact name) (net.attached p)),
    ("data", option (fun i : Image => point (i.width, i.height)) (s.image? p.index))]

def details (net : Network) (s : Stage) : Json :=
  .obj [("reg", .str s.registration.text), ("provider", .obj (provider s.provider)),
    ("kind", .str ObjectKind.stage.label), ("plug_count", nat s.filter.plugs.length),
    ("socket_count", nat s.filter.sockets.length), ("ready", .bool (net.isReady s)),
    ("plugs", .arr (List.zipWith (plug name net) s.filter.plugs s.plugs)),
    ("sockets", .arr (List.zipWith (socket name net s) s.filter.sockets s.sockets)),
    ("options", options s.options)]

def slot (c : ObjectCache) (id : SlotId) : Json :=
  .obj [("key", option (fun s : CacheSlot => .str s.key.display) c.slots[id]?),
    ("empty", .bool (c.entry? id).isNone),
    ("kind", option (fun e : Entity => .str e.envelope.kind.label) (c.entry? id))]

def batch (t : Ticket) : Json :=
  .obj [("origin", point t.origin), ("cursor", point t.cursor), ("array", array t.array)]

end ColourPipeline.Exact
