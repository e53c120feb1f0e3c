import ColourPipeline.Proofs.Pull.Run
import ColourPipeline.Pull.Render

namespace ColourPipeline

namespace Network

def request [Memory] (net : Network) (c : Conversion) : Work Stop Ticket Progress :=
  match c.output.bind net.find? with
  | some s => net.service net.stages.length s 0
  | none => throw (.error .missingOutput)

def passed (net : Network) (c : Conversion) : List Stage :=
  ((c.output.bind net.find?).map (net.route net.stages.length)).getD []

def Finitely (used : Uses) (net : Network) (c : Conversion) : Prop :=
  ∀ s ∈ net.passed c, s.filter.role = .transform →
    (s.registration, s.options) ∈ used ∧ s.options.IsFinite

end Network

variable {used : Uses} {net : Network}

theorem Conversion.follows_run [Memory] (hk : Set.InjOn CacheKey.ofText used.texts)
    (hu : used.Separate) (c : Conversion) (hc : Pull.Covers used (net.passed c)) :
    Pull.Follows used net c.run (net.request c) := by
  rw [Conversion.run, Network.request]
  rw [Network.passed] at hc
  cases ho : c.output with
  | none => exact Pull.follows_throw _
  | some id =>
    rw [ho] at hc
    refine Pull.follows_network ?_
    rintro p rfl
    dsimp only [Option.bind_some] at hc ⊢
    cases hs : p.network.find? id with
    | none => exact Pull.follows_throw _
    | some s =>
      rw [hs] at hc
      exact Pull.follows_depth (Pull.follows_service hk hu _ s 0 none hc)

lemma Uses.texts_mono {now : Uses} (h : now ⊆ used) : now.texts ⊆ used.texts := by
  rintro text ⟨r, s, hs, rfl⟩
  exact ⟨r, s, h hs, rfl⟩

lemma Uses.finite_subset (used : Uses) : used.finite ⊆ used := fun _ h => h.1

lemma Uses.separate_finite (used : Uses) : used.finite.Separate :=
  fun r s t hs ht => used.apart_finite r s t hs.1 ht

theorem Conversion.follows_run_finite [Memory] (hk : Set.InjOn CacheKey.ofText used.texts)
    {c : Conversion} (hc : net.Finitely used c) :
    Pull.Follows used.finite net c.run (net.request c) :=
  c.follows_run (hk.mono (Uses.texts_mono used.finite_subset)) used.separate_finite hc

theorem Pipeline.Reachable.sound_finite {p : Pipeline} (hp : Pipeline.Reachable used p)
    (hk : Set.InjOn CacheKey.ofText used.texts) : p.cache.Sound used.finite :=
  hp.sound_of_apart hk used.finite_subset used.apart_finite

end ColourPipeline
