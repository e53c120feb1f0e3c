import ColourPipeline.Proofs.Pull.Run
import ColourPipeline.Provider.Builtin

namespace ColourPipeline

namespace Pipeline

variable {r : Path} {s t : OptionSet}

def imageStage (image : Option Image) : Stage where
  id := 0
  provider := ⟨0, .parse "org/tincture/colour/image.root", ⟨0, 1, 0⟩, .filter .imageRoot⟩
  filter := .imageRoot
  options := .empty
  images := [image]
  handles := 1

def gainStage (r : Path) (s : OptionSet) : Stage where
  id := 1
  provider := ⟨1, r, ⟨0, 1, 0⟩, .filter .gain⟩
  filter := .gain
  options := s
  images := [none]
  handles := 1

def bench (r : Path) (s : OptionSet) : Network where
  stages := [imageStage (some (.filled 1 1 Gain.probe)), gainStage r s]
  remotes := [(⟨1, 0⟩, ⟨0, 0⟩)]
  listings := [(⟨0, 0⟩, [⟨1, 0⟩])]
  created := 2

lemma connect_bench (r : Path) (s : OptionSet) :
    Network.connect ⟨1, 0⟩ ⟨0, 0⟩ ⟨[imageStage none, gainStage r s], [], [], 2⟩ =
      .ok [] ⟨[imageStage none, gainStage r s], [(⟨1, 0⟩, ⟨0, 0⟩)], [(⟨0, 0⟩, [⟨1, 0⟩])], 2⟩ := by
  have hc : (Connector.data "in").checkCompatible (.data "image") = .ok () := by decide
  rw [Network.connect_of_compatible rfl rfl hc, if_neg]
  · rfl
  · simp [Network.closesCycle, Network.walk, search, Network.ids, imageStage, gainStage, reach,
      found, Network.next, Network.suppliers, Network.edgesInto, Network.find?, Stage.plugs,
      Filter.imageRoot]

def probing : Ticket := .ofRegion none 1

def filled : Ticket :=
  { probing with array := ⟨1, 1, #[Gain.probe]⟩, output := ⟨1, 1, {}⟩, exhausted := true }

def probed (k : Gain) : Ticket := { filled with array := k.apply filled.array }

abbrev ample : Memory := ⟨0x10000⟩

section Ample

attribute [local instance] ample

lemma through_bench {p : Pipeline} (hp : p.network = bench r s) :
    Pull.through (Pull.service 1) (gainStage r s) 0 (p, probing) =
      .ok .advanced (p, filled) := by
  have hs : Ticket.serve (.filled 1 1 Gain.probe) probing = .ok .advanced filled := rfl
  have hi : (imageStage (some (.filled 1 1 Gain.probe))).image? 0 =
      some (.filled 1 1 Gain.probe) := rfl
  obtain ⟨net, cache, transforms, log⟩ := p
  obtain rfl : net = bench r s := hp
  show Pull.serve (imageStage (some (.filled 1 1 Gain.probe))) 0 (_, probing) = _
  rw [Pull.serve, hi]
  show Work.on _ _ (Ticket.serve (.filled 1 1 Gain.probe)) (_, probing) = _
  rw [Work.on, hs]

lemma answer_bench {p : Pipeline} (hp : p.network = bench r s) :
    Pull.answer (.socket ⟨1, 0⟩) (p, probing) =
      .ok .advanced ((p.drawGain (gainStage r s)).2.countBatch (gainStage r s) 0
          (probed (p.drawGain (gainStage r s)).1).array.size,
        probed (p.drawGain (gainStage r s)).1) := by
  have ht := through_bench hp
  obtain ⟨net, cache, transforms, log⟩ := p
  obtain rfl : net = bench r s := hp
  show EStateM.bind (Pull.through (Pull.service 1) (gainStage r s) 0) _ (_, probing) = _
  rw [EStateM.bind, ht]
  rfl

lemma direct_bench (r : Path) (s : OptionSet) :
    (bench r s).answer (.socket ⟨1, 0⟩) probing = .ok .advanced (probed (Gain.ofOptions s)) := rfl

lemma covers_bench {used : Uses} (h : (r, s) ∈ used) :
    Pull.Covers used ((bench r s).passes (.socket ⟨1, 0⟩)) := by
  have hp : (bench r s).passes (.socket ⟨1, 0⟩) =
      [gainStage r s, imageStage (some (.filled 1 1 Gain.probe))] := rfl
  rw [hp]
  intro u hu hrole
  rcases List.mem_pair.1 hu with rfl | rfl
  · exact h
  · cases hrole

lemma reachable_bench (used : Uses) (r : Path) (s : OptionSet) :
    Reachable used { network := bench r s } := by
  have hc : ({ network := ⟨[imageStage none, gainStage r Filter.gain.defaults], [], [], 2⟩ } :
      Pipeline).act (.edit (.connect ⟨1, 0⟩ ⟨0, 0⟩)) = { network :=
        ⟨[imageStage none, gainStage r Filter.gain.defaults], [(⟨1, 0⟩, ⟨0, 0⟩)],
          [(⟨0, 0⟩, [⟨1, 0⟩])], 2⟩ } := by
    show Pipeline.orStay _ (Pipeline.connect _ _ _) = _
    rw [Pipeline.connect, connect_bench]
    rfl
  have h : Reachable used {} := .empty
  have h := h.act (a := .edit (.create (imageStage none).provider)) trivial
  have h := h.act (a := .edit (.create (gainStage r s).provider)) trivial
  have h := h.act (a := .edit (.connect ⟨1, 0⟩ ⟨0, 0⟩)) trivial
  have h := (hc ▸ h : Reachable used _)
  have h := h.act (a := .edit (.setImage ⟨0, 0⟩ (.filled 1 1 Gain.probe))) trivial
  exact h.act (a := .edit (.setOptions 1 s)) trivial

lemma drawFrom_same {p : Pipeline} {s : Stage} {slot : SlotId}
    (h : (p.transform s.provider.id).drawn.lookup s.id = some slot) :
    (p.drawFrom s slot).cache = p.cache.drop slot := by
  simp [Pipeline.drawFrom, h]

def edited (r : Path) (s t : OptionSet) : Pipeline :=
  (({ network := bench r s } : Pipeline).act (.request ample (.socket ⟨1, 0⟩) probing)).act
    (.edit (.setOptions 1 t))

lemma edited_network : (edited r s t).network = bench r t := by
  show (Pipeline.afterRequest (Pull.answer _ _)).network.setOptions 1 t = _
  rw [answer_bench rfl]
  rfl

lemma edited_cache : (edited r s t).cache = {
    slots := [⟨CacheKey.ofText (gainText r s),
      some (.ofContent 0 {} (.transform (Gain.ofOptions s))), 1⟩]
    directory := ⟨[(CacheKey.ofText (gainText r s), 0)], 0, 1⟩
    issued := 1 } := by
  show (Pipeline.afterRequest (Pull.answer _ _)).cache = _
  rw [answer_bench rfl]
  rfl

lemma edited_drawn : ((edited r s t).transform 1).drawn = [(1, 0)] := by
  show ((Pipeline.afterRequest (Pull.answer _ _)).transform 1).drawn = _
  rw [answer_bench rfl]
  rfl

lemma drawGain_edited (h : s.Alike t) :
    ((edited r s t).drawGain (gainStage r t)).1 = Gain.ofOptions s := by
  have hk : (gainStage r t).gainKey = gainText r s := (gainText_eq_iff.2 ⟨rfl, h⟩).symm
  have hf : (edited r s t).cache.filed? (CacheKey.ofText (gainText r s)) = some 0 := by
    rw [edited_cache]
    simp [ObjectCache.filed?]
  have hd : ((edited r s t).transform 1).drawn.lookup 1 = some 0 := by
    rw [edited_drawn]
    rfl
  have hc := edited_cache (r := r) (s := s) (t := t)
  generalize edited r s t = p at hf hd hc
  rw [Pipeline.drawGain, hk, ObjectCache.lookup_of_filed hf]
  dsimp only
  have hg : (({ p with cache := p.cache.countHit.hold 0 } : Pipeline).drawFrom
      (gainStage r t) 0).cache = (p.cache.countHit.hold 0).drop 0 := drawFrom_same hd
  rw [hg, hc]
  rfl

end Ample

def outcome {α : Type} : EStateM.Result Stop (Pipeline × Ticket) α →
    EStateM.Result Stop Ticket α
  | .ok a s => .ok a s.2
  | .error e s => .error e s.2

lemma outcome_of_agrees {α : Type} {used : Uses} {net : Network}
    {m : EStateM.Result Stop (Pipeline × Ticket) α}
    {w : EStateM.Result Stop Ticket α} (h : Pull.Agrees used net m w) : outcome m = w := by
  cases h <;> rfl

def Memoized (used : Uses) : Prop :=
  ∀ p, Reachable used p → ∀ (_ : Memory) r t, Pull.Covers used (p.network.passes r) →
    outcome (Pull.answer r (p, t)) = p.network.answer r t

lemma separate_of_memoized {used : Uses} (h : Memoized used) : used.Separate := by
  intro r s t hs ht ha
  -- Two sets of one text in turn: the second request is answered with the gain of the first.
  have hp := reachable_bench used r s
  have hp := hp.act (a := .request ample (.socket ⟨1, 0⟩) probing) (covers_bench hs)
  have hp : Reachable used (edited r s t) := hp.act (a := .edit (.setOptions 1 t)) trivial
  have hx := h _ hp ample (.socket ⟨1, 0⟩) probing (edited_network ▸ covers_bench ht)
  rw [answer_bench edited_network, drawGain_edited ha, edited_network, direct_bench] at hx
  injection hx with _ hticket
  exact Gain.eq_of_apply ha (congrArg Ticket.array hticket)

/-- Every request in every run gets what it would get without a cache, if and only if all options
of the same registration and text have the same gain. This is so if the doubles they make the
gain of are finite. -/
theorem memoized_iff (used : Uses)
    (hk : Set.InjOn (fun text => Digest.sha256 (Bytes.ofText text))
      {text ∈ used.texts | CacheKey.inlineLimit ≤ text.utf8ByteSize}) :
    ((∀ p, Reachable used p → ∀ (_ : Memory) r t, Pull.Covers used (p.network.passes r) →
        outcome (Pull.answer r (p, t)) = p.network.answer r t) ↔ used.Separate) ∧
      ((∀ r s, (r, s) ∈ used → Gain.Finite s) → used.Separate) := by
  have hk := CacheKey.ofText_injOn hk
  refine ⟨⟨separate_of_memoized, fun hu p hp _ r t hr => ?_⟩, fun hf r s t hs ht ha => ?_⟩
  · exact outcome_of_agrees (Pull.follows_answer hk hu r hr p t rfl (hp.sound hk hu))
  · exact Gain.ofOptions_eq_of_finite ha (hf r s hs)

def doubled : Uses :=
  {(⟨"icc.transform"⟩, .empty),
    (⟨"icc.transform"⟩, ⟨[{ registration := "icc.transform/gain", value := .double 2 }]⟩)}

theorem memoized_doubled :
    Set.InjOn (fun text => Digest.sha256 (Bytes.ofText text))
        {text ∈ doubled.texts | CacheKey.inlineLimit ≤ text.utf8ByteSize} ∧
      ∀ p, Reachable doubled p → ∀ (_ : Memory) r t, Pull.Covers doubled (p.network.passes r) →
        outcome (Pull.answer r (p, t)) = p.network.answer r t := by
  have hshort : (gainText ⟨"icc.transform"⟩ .empty).utf8ByteSize < CacheKey.inlineLimit := by
    decide
  have hk : Set.InjOn (fun text => Digest.sha256 (Bytes.ofText text))
      {text ∈ doubled.texts | CacheKey.inlineLimit ≤ text.utf8ByteSize} := by
    apply Set.Subsingleton.injOn
    rintro x ⟨⟨r, s, hs, rfl⟩, hx⟩ y ⟨⟨r', t, ht, rfl⟩, hy⟩
    rcases hs with hs | hs
    · cases hs
      exact absurd hshort (not_lt.2 hx)
    · rcases ht with ht | ht
      · cases ht
        exact absurd hshort (not_lt.2 hy)
      · cases hs
        cases ht
        rfl
  refine ⟨hk, (memoized_iff doubled hk).1.2 ((memoized_iff doubled hk).2 fun r s hs => ?_)⟩
  rcases hs with hs | hs
  · cases hs
    intro k hk x hx
    cases hx
  · cases hs
    decide

def unbounded : Uses :=
  {(⟨"icc.transform"⟩, ⟨[{ registration := "icc.transform/gain", value := .double (1 / 0) }]⟩),
    (⟨"icc.transform"⟩, ⟨[{ registration := "icc.transform/gain", value := .double (0 / 0) }]⟩)}

theorem not_memoized_unbounded : ¬ Memoized unbounded := by
  intro h
  have ha := separate_of_memoized h _ _ _ (.inl rfl) (.inr rfl)
    (.cons ⟨rfl, .inr (by decide), rfl, rfl⟩ .nil)
  revert ha
  decide

end Pipeline

end ColourPipeline
