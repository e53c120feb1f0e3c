import ColourPipeline.Proofs.Gain
import ColourPipeline.Proofs.Pull.Conversion
import ColourPipeline.Proofs.Pull.Exact
import ColourPipeline.Proofs.Ticket

namespace ColourPipeline

open Relation

namespace PixelArray

variable {a : PixelArray} {f g : Pixel → Pixel}

lemma map_id (a : PixelArray) : a.map id = a := by
  simp [PixelArray.map]

lemma map_map : (a.map f).map g = a.map (g ∘ f) := by
  simp [PixelArray.map]

lemma get?_map {c r : ℕ} {p : Pixel} (h : a.get? c r = some p) :
    (a.map f).get? c r = some (f p) := by
  obtain ⟨k, hk, hp⟩ := Option.bind_eq_some_iff.1 h
  refine Option.bind_eq_some_iff.2 ⟨k, hk, ?_⟩
  simp [PixelArray.map, hp]

end PixelArray

namespace Gain

def onPixel (k : Gain) (p : Pixel) : Pixel := if k.isIdentity then p else k.scale p

lemma apply_eq (k : Gain) (a : PixelArray) : k.apply a = a.map k.onPixel := by
  rw [apply]
  by_cases hk : k.isIdentity = true
  · have hf : k.onPixel = id := by
      funext p
      rw [onPixel, if_pos hk]
      rfl
    rw [if_pos hk, hf, PixelArray.map_id]
  · have hf : k.onPixel = k.scale := by
      funext p
      rw [onPixel, if_neg hk]
    rw [if_neg hk, hf]

lemma onPixel_ofOptions (s : OptionSet) (p : Pixel) : (ofOptions s).onPixel p =
    if s.Neutral then p else
      ⟨p.r * s.factor "gain_r", p.g * s.factor "gain_g", p.b * s.factor "gain_b", p.a⟩ := by
  rw [onPixel, ofOptions_eq]
  rfl

end Gain

namespace Stage

def tint (ts : List Stage) (p : Pixel) : Pixel :=
  ts.foldr (fun s => (Gain.ofOptions s.options).onPixel) p

def scaled (ts : List Stage) (key : String) (x : Float32) : Float32 :=
  ts.foldr (fun s x => if s.options.Neutral then x else x * s.options.factor key) x

lemma tint_eq (ts : List Stage) (p : Pixel) : tint ts p =
    ⟨scaled ts "gain_r" p.r, scaled ts "gain_g" p.g, scaled ts "gain_b" p.b, p.a⟩ := by
  induction ts with
  | nil => rfl
  | cons s ts ih =>
    show (Gain.ofOptions s.options).onPixel (tint ts p) = _
    rw [ih, Gain.onPixel_ofOptions]
    simp only [scaled, List.foldr_cons]
    split <;> rfl

end Stage

namespace Network

variable {net : Network} {i : Image} {s u out root : Stage} {ts : List Stage}

def Feeds (net : Network) (s u : Stage) : Prop :=
  net.remote? ⟨s.id, 0⟩ = some ⟨u.id, 0⟩ ∧ net.find? u.id = some u

/-- An image root with an image, transforms and an output, each of which pulls from the one
before. The transforms are listed from the output up. -/
structure Line (net : Network) (i : Image) (out : Stage) (ts : List Stage) (root : Stage) :
    Prop where
  found : net.find? out.id = some out
  output : out.filter = .imageOutput
  gains : ∀ s ∈ ts, s.filter = .gain
  source : root.filter = .imageRoot
  image : root.image? 0 = some i
  linked : (out :: (ts ++ [root])).IsChain net.Feeds

lemma mem_of_isChain {ss : List Stage} (hs : net.find? s.id = some s)
    (h : (s :: ss).IsChain net.Feeds) : ∀ u ∈ s :: ss, u ∈ net.stages := by
  induction ss generalizing s with
  | nil =>
    intro u hu
    obtain rfl := List.mem_singleton.1 hu
    exact List.mem_of_find?_eq_some hs
  | cons v ss ih =>
    obtain ⟨hf, hc⟩ := List.isChain_cons_cons.1 h
    intro u hu
    rcases List.mem_cons.1 hu with rfl | hu
    · exact List.mem_of_find?_eq_some hs
    · exact ih hf.2 hc u hu

lemma length_le_of_isChain (hn : Acyclic (Pulls net.remote?)) {ss : List Stage}
    (hs : net.find? s.id = some s) (h : (s :: ss).IsChain net.Feeds) :
    (s :: ss).length ≤ net.stages.length := by
  have hd : ((s :: ss).map (·.id)).Nodup := by
    refine hn.nodup_of_isChain ((List.isChain_map _).2 (h.imp fun u v huv => ?_))
    exact ⟨0, ⟨v.id, 0⟩, huv.1, rfl⟩
  have hsub : (s :: ss).map (·.id) ⊆ net.stages.map (·.id) :=
    List.map_subset _ (mem_of_isChain hs h)
  simpa using (hd.subperm hsub).length_le

end Network

def Ticket.deliver [Memory] (i : Image) (ts : List Stage) : Work Stop Ticket Progress := do
  let progress ← serve i
  if progress = .advanced then modify fun t => { t with array := t.array.map (Stage.tint ts) }
  return progress

lemma Ticket.deliver_eq [Memory] (i : Image) (ts : List Stage) (t : Ticket) :
    deliver i ts t = match serve i t with
      | .ok .advanced u => .ok .advanced { u with array := u.array.map (Stage.tint ts) }
      | r => r := by
  show EStateM.bind (serve i) _ t = _
  rw [EStateM.bind]
  cases serve i t with
  | ok progress u => cases progress <;> rfl
  | error e u => rfl

namespace Network

variable {net : Network} {i : Image} {s u out root : Stage} {ts : List Stage}

lemma through_of_feeds {run : Stage → ℕ → Work Stop Ticket Progress} {c : Connector}
    (hp : s.plug 0 = .ok c) (h : net.Feeds s u) : net.through run s 0 = run u 0 := by
  rw [through, hp, h.1]
  dsimp only
  rw [h.2]
  rfl

lemma deliver_cons [Memory] : (do
    let progress ← Ticket.deliver i ts
    if progress = .advanced then applyGain s
    return progress) = Ticket.deliver i (s :: ts) := by
  funext t
  show EStateM.bind (Ticket.deliver i ts) _ t = _
  rw [EStateM.bind, Ticket.deliver_eq, Ticket.deliver_eq]
  cases Ticket.serve i t with
  | ok progress u =>
    cases progress with
    | advanced =>
      show EStateM.Result.ok _ { u with
        array := (Gain.ofOptions s.options).apply (u.array.map (Stage.tint ts)) } = _
      rw [Gain.apply_eq, PixelArray.map_map]
      rfl
    | completed => rfl
    | unchanged => rfl
  | error e u => rfl

lemma deliver_nil [Memory] : Ticket.deliver i [] = Ticket.serve i := by
  funext t
  have hf : Stage.tint [] = id := rfl
  rw [Ticket.deliver_eq, hf]
  cases Ticket.serve i t with
  | ok progress u => cases progress <;> simp [PixelArray.map_id]
  | error e u => rfl

lemma exists_feeds {us : List Stage} (hu : us ≠ []) (h : (s :: us).IsChain net.Feeds) :
    ∃ u, us.head? = some u ∧ net.Feeds s u ∧ us.IsChain net.Feeds := by
  cases us with
  | nil => exact absurd rfl hu
  | cons u us =>
    obtain ⟨hf, hc⟩ := List.isChain_cons_cons.1 h
    exact ⟨u, rfl, hf, hc⟩

lemma service_gains [Memory] {depth : ℕ} (hd : ts.length < depth) (hg : ∀ s ∈ ts, s.filter = .gain)
    (hr : root.filter = .imageRoot) (hi : root.image? 0 = some i)
    (h : (ts ++ [root]).IsChain net.Feeds) (hs : (ts ++ [root]).head? = some s) :
    net.service depth s 0 = Ticket.deliver i ts := by
  induction ts generalizing depth s with
  | nil =>
    obtain rfl : root = s := Option.some.inj hs
    obtain ⟨d, rfl⟩ := Nat.exists_eq_add_of_lt hd
    have hrole : root.filter.role = .source := by rw [hr]; rfl
    rw [Network.service, hrole]
    show Network.serve root 0 = _
    rw [Network.serve, hi, deliver_nil]
  | cons t ts ih =>
    obtain rfl : t = s := Option.some.inj hs
    obtain ⟨d, rfl⟩ := Nat.exists_eq_add_of_lt hd
    have hrole : t.filter.role = .transform := by rw [hg t List.mem_cons_self]; rfl
    have hp : t.plug 0 = .ok (.data "in") := by
      rw [Stage.plug, hg t List.mem_cons_self]
      rfl
    obtain ⟨u, hu, hf, hc⟩ := exists_feeds (by simp) h
    rw [Network.service, hrole]
    show (do
      let progress ← net.through (net.service _) t 0
      if progress = .advanced then applyGain t
      return progress : Work Stop Ticket Progress) = _
    have hlen : ts.length < (t :: ts).length + d := by simp; omega
    rw [through_of_feeds hp hf,
      ih hlen (fun v hv => hg v (List.mem_cons_of_mem t hv)) hc hu, deliver_cons]

lemma isReady_output (ho : s.filter = .imageOutput) :
    net.isReady s = (net.remote? ⟨s.id, 0⟩).isSome := by
  simp [isReady, Stage.plugs, ho, Filter.imageOutput, Connector.data]

lemma isReady_of_feeds (ho : s.filter = .imageOutput) (h : net.Feeds s u) :
    net.isReady s = true := by
  rw [isReady_output ho, h.1]
  rfl

lemma supplier?_of_feeds (ho : outlet s = 0) (h : net.Feeds s u) : net.supplier? s = some u := by
  rw [supplier?, ho, h.1, Option.bind_some, h.2]

lemma supplier?_root (hn : net.Consistent) (hr : root.filter = .imageRoot)
    (hf : net.find? root.id = some root) : net.supplier? root = none := by
  cases h : net.remote? ⟨root.id, outlet root⟩ with
  | none => rw [supplier?, h, Option.bind_none]
  | some c =>
    obtain ⟨f, hfilter, hlt⟩ := (hn.valid _ _ h).1
    have hff : net.filter? root.id = some .imageRoot := by rw [filter?, hf, Option.map_some, hr]
    obtain rfl : Filter.imageRoot = f := Option.some.inj (hff.symm.trans hfilter)
    exact absurd hlt (Nat.not_lt_zero _)

lemma route_gains {depth : ℕ} (hroot : net.supplier? root = none) (hd : ts.length < depth)
    (hg : ∀ s ∈ ts, s.filter = .gain) (h : (ts ++ [root]).IsChain net.Feeds)
    (hs : (ts ++ [root]).head? = some s) : net.route depth s = ts ++ [root] := by
  induction ts generalizing depth s with
  | nil =>
    obtain rfl : root = s := Option.some.inj hs
    obtain ⟨d, rfl⟩ := Nat.exists_eq_add_of_lt hd
    rw [route, hroot]
    rfl
  | cons t ts ih =>
    obtain rfl : t = s := Option.some.inj hs
    obtain ⟨d, rfl⟩ := Nat.exists_eq_add_of_lt hd
    obtain ⟨u, hu, hf, hc⟩ := exists_feeds (by simp) h
    have ho : outlet t = 0 := by
      rw [outlet, hg t List.mem_cons_self]
      rfl
    have hlen : ts.length < (t :: ts).length + d := by simp; omega
    rw [route, supplier?_of_feeds ho hf]
    show t :: net.route _ u = _
    rw [ih hlen (fun v hv => hg v (List.mem_cons_of_mem t hv)) hc hu, List.cons_append]

lemma find?_root (h : net.Line i out ts root) : net.find? root.id = some root := by
  obtain ⟨init, v, hv⟩ : ∃ init v, out :: ts = init ++ [v] :=
    ⟨_, _, (List.dropLast_append_getLast (List.cons_ne_nil out ts)).symm⟩
  have hl := h.linked
  rw [← List.cons_append, hv, List.append_assoc] at hl
  exact (List.isChain_cons_cons.1 (List.isChain_append.1 hl).2.1).1.2

lemma Line.exists_depth (hn : Acyclic (Pulls net.remote?)) (h : net.Line i out ts root) :
    ∃ d u, net.stages.length = d + 1 ∧ ts.length < d ∧ (ts ++ [root]).head? = some u ∧
      net.Feeds out u ∧ (ts ++ [root]).IsChain net.Feeds := by
  have hl := length_le_of_isChain hn h.found h.linked
  simp only [List.length_cons, List.length_append, List.length_nil] at hl
  obtain ⟨d, hd⟩ := Nat.exists_eq_add_of_lt (Nat.lt_of_lt_of_le (Nat.zero_lt_succ _) hl)
  obtain ⟨u, hu, hf, hc⟩ := exists_feeds (by simp) h.linked
  exact ⟨d, u, by omega, by omega, hu, hf, hc⟩

lemma Line.find?_output (h : net.Line i out ts root) {c : Conversion}
    (hc : c.output = some out.id) : c.output.bind net.find? = some out := by
  rw [hc, Option.bind_some, h.found]

lemma Line.passed (hn : net.Consistent) (h : net.Line i out ts root) {c : Conversion}
    (hc : c.output = some out.id) : net.passed c = out :: (ts ++ [root]) := by
  obtain ⟨d, u, hd, hlt, hu, hf, hlink⟩ := h.exists_depth hn.acyclic
  have ho : outlet out = 0 := by
    rw [outlet, h.output]
    rfl
  rw [Network.passed, h.find?_output hc, hd]
  show net.route (d + 1) out = _
  rw [route, supplier?_of_feeds ho hf]
  show out :: net.route d u = _
  rw [route_gains (supplier?_root hn h.source (find?_root h)) hlt h.gains hlink hu]

lemma Line.finitely {used : Uses} (hn : net.Consistent) (h : net.Line i out ts root)
    {c : Conversion} (hc : c.output = some out.id)
    (ht : ∀ s ∈ ts, (s.registration, s.options) ∈ used ∧ s.options.IsFinite) :
    net.Finitely used c := by
  intro s hs hrole
  rw [h.passed hn hc] at hs
  rcases List.mem_cons.1 hs with rfl | hs
  · rw [h.output] at hrole
    cases hrole
  rcases List.mem_append.1 hs with hs | hs
  · exact ht s hs
  · obtain rfl := List.mem_singleton.1 hs
    rw [h.source] at hrole
    cases hrole

theorem Line.request [Memory] (hn : Acyclic (Pulls net.remote?)) (h : net.Line i out ts root)
    {c : Conversion} (hc : c.output = some out.id) : net.request c = Ticket.deliver i ts := by
  obtain ⟨d, u, hd, hlt, hu, hf, hlink⟩ := h.exists_depth hn
  have hrole : out.filter.role = .output := by
    rw [h.output]
    rfl
  have hp : out.plug 0 = .ok (.data "image") := by
    rw [Stage.plug, h.output]
    rfl
  rw [Network.request, h.find?_output hc]
  dsimp only
  rw [hd, Network.service, hrole]
  dsimp only
  rw [if_pos (isReady_of_feeds h.output hf), through_of_feeds hp hf]
  exact service_gains hlt h.gains h.source h.image hlink hu

end Network

namespace Pipeline

def outputStage : Stage where
  id := 2
  provider := ⟨2, .parse "org/tincture/colour/image.output", ⟨0, 1, 0⟩, .filter .imageOutput⟩
  filter := .imageOutput
  options := .empty
  images := []
  handles := 1

def pair : Image := .filled 2 1 Gain.probe

def doubling : OptionSet := ⟨[{ registration := "icc.transform/gain", value := .double 2 }]⟩

def counter (root : Stage) (s : OptionSet) : Network where
  stages := [root, gainStage ⟨"icc.transform"⟩ s, outputStage]
  remotes := [(⟨1, 0⟩, ⟨0, 0⟩), (⟨2, 0⟩, ⟨1, 0⟩)]
  listings := [(⟨0, 0⟩, [⟨1, 0⟩]), (⟨1, 0⟩, [⟨2, 0⟩])]
  created := 3

def partly (s : OptionSet) : Network where
  stages := [imageStage none, gainStage ⟨"icc.transform"⟩ s, outputStage]
  remotes := [(⟨1, 0⟩, ⟨0, 0⟩)]
  listings := [(⟨0, 0⟩, [⟨1, 0⟩])]
  created := 3

lemma connect_partly (s : OptionSet) :
    Network.connect ⟨2, 0⟩ ⟨1, 0⟩ (partly s) = .ok [] (counter (imageStage none) s) := by
  have hc : (Connector.data "image").checkCompatible (.data "out") = .ok () := by decide
  have hids : (partly s).ids = [0, 1, 2] := rfl
  have hone : (partly s).suppliers 1 = [0] := rfl
  have hroot : (partly s).suppliers 0 = [] := rfl
  have hd : ([0] : List StageId).eraseDups = [0] := rfl
  rw [Network.connect_of_compatible rfl rfl hc, if_neg]
  · rfl
  · simp [Network.closesCycle, Network.walk, Network.next, search, reach, found, hids, hone,
      hroot, hd, stillUnseen]

lemma reachable_counter (used : Uses) (i : Image) (s : OptionSet) :
    Reachable used { network := counter (imageStage (some i)) s } := by
  have hfirst : ({ network := ⟨[imageStage none, gainStage ⟨"icc.transform"⟩ Filter.gain.defaults],
      [], [], 2⟩ } : Pipeline).act (.edit (.connect ⟨1, 0⟩ ⟨0, 0⟩)) = { network :=
        ⟨[imageStage none, gainStage ⟨"icc.transform"⟩ Filter.gain.defaults],
          [(⟨1, 0⟩, ⟨0, 0⟩)], [(⟨0, 0⟩, [⟨1, 0⟩])], 2⟩ } := by
    show Pipeline.orStay _ (Pipeline.connect _ _ _) = _
    rw [Pipeline.connect, connect_bench]
    rfl
  have hsecond : ({ network := partly Filter.gain.defaults } : Pipeline).act
      (.edit (.connect ⟨2, 0⟩ ⟨1, 0⟩)) =
        { network := counter (imageStage none) Filter.gain.defaults } := by
    show Pipeline.orStay _ (Pipeline.connect _ _ _) = _
    rw [Pipeline.connect, connect_partly]
    rfl
  have h : Reachable used {} := .empty
  have h := h.act (a := .edit (.create (imageStage none).provider)) trivial
  have h := h.act (a := .edit (.create (gainStage ⟨"icc.transform"⟩ s).provider)) trivial
  have h := h.act (a := .edit (.connect ⟨1, 0⟩ ⟨0, 0⟩)) trivial
  have h := (hfirst ▸ h : Reachable used _)
  have h := h.act (a := .edit (.create outputStage.provider)) trivial
  have h : Reachable used ({ network := partly Filter.gain.defaults } : Pipeline) := h
  have h := h.act (a := .edit (.connect ⟨2, 0⟩ ⟨1, 0⟩)) trivial
  have h := (hsecond ▸ h : Reachable used _)
  have h := h.act (a := .edit (.setImage ⟨0, 0⟩ i)) trivial
  exact h.act (a := .edit (.setOptions 1 s)) trivial

lemma line_counter (i : Image) (s : OptionSet) :
    (counter (imageStage (some i)) s).Line i outputStage
      [gainStage ⟨"icc.transform"⟩ s] (imageStage (some i)) where
  found := rfl
  output := rfl
  gains u hu := by
    obtain rfl := List.mem_singleton.1 hu
    rfl
  source := rfl
  image := rfl
  linked := .cons_cons ⟨rfl, rfl⟩ (.cons_cons ⟨rfl, rfl⟩ (.singleton _))

lemma uses_counter {o : OptionSet} (ho : o.IsFinite) :
    ∀ s ∈ [gainStage ⟨"icc.transform"⟩ o],
      (s.registration, s.options) ∈ ({(⟨"icc.transform"⟩, o)} : Uses) ∧ s.options.IsFinite := by
  intro s hs
  obtain rfl := List.mem_singleton.1 hs
  exact ⟨rfl, ho⟩

end Pipeline

end ColourPipeline
