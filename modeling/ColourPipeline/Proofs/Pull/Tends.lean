import ColourPipeline.Proofs.Cache.Tends
import ColourPipeline.Proofs.Pull.Conversion

namespace ColourPipeline

open ObjectCache (Tends Filing)

variable {keys : Set CacheKey} {fits : CacheKey → Entity → Prop} {p : Pipeline} {used : Uses}

namespace Pipeline

lemma tends_drawGain {s : Stage} (hc : p.cache.Filing) (hs : CacheKey.ofText s.gainKey ∉ keys) :
    p.cache.Tends keys fits (p.drawGain s).2.cache := by
  have hl : p.cache.Tends keys fits (p.cache.lookup s.gainKey).2 :=
    ObjectCache.tends_lookup s.gainKey
  have hkey : (p.cache.lookup s.gainKey).2.key? (p.cache.lookup s.gainKey).1 =
      some (CacheKey.ofText s.gainKey) :=
    hl.filing hc _ _ (by rw [ObjectCache.filed?_lookup, if_pos rfl])
  rw [Pipeline.drawGain]
  generalize p.cache.lookup s.gainKey = r at hl hkey
  obtain ⟨slot, cache⟩ := r
  dsimp only at hl hkey ⊢
  have hq := @drawFrom_cache { p with cache } s
    (fun c => p.cache.Tends keys fits c ∧ c.key? slot = some (CacheKey.ofText s.gainKey)) slot
    ⟨hl, hkey⟩ (fun i => ⟨hl.trans (ObjectCache.tends_drop i), by rwa [ObjectCache.key?_drop]⟩)
    fun i => ⟨hl.trans (ObjectCache.tends_release i), by rwa [ObjectCache.key?_release]⟩
  generalize Pipeline.drawFrom { p with cache } s slot = q at hq ⊢
  have hslot : ∀ k ∈ keys, q.cache.fresh.2.key? slot ≠ some k := by
    rintro k hk hslot
    obtain rfl : CacheKey.ofText s.gainKey = k := Option.some.inj (hq.2.symm.trans hslot)
    exact hs hk
  split
  · exact hq.1
  · have hset := hq.1.trans ObjectCache.tends_fresh
    dsimp only
    exact hset.trans (ObjectCache.tends_set_elsewhere hslot _)

lemma tends_edit (e : Edit) : p.cache.Tends keys fits (p.edit e).cache :=
  edit_cache (P := fun c => p.cache.Tends keys fits c)
    (fun _ id h => h.trans (ObjectCache.tends_drop id)) (.refl _) e

end Pipeline

lemma Conversion.keeps_run [Memory] {P : Pipeline → Prop} {net : Network}
    (hnet : ∀ q, P q → q.network = net) (hlog : ∀ q e, P q → P (q.report e)) (c : Conversion)
    (hc : ∀ u ∈ net.passed c, u.filter.role = .transform → Pull.Keeps P (Pull.applyGain u)) :
    Pull.Keeps P c.run := by
  rw [Conversion.run]
  rw [Network.passed] at hc
  cases ho : c.output with
  | none => exact Pull.keeps_throw _
  | some id =>
    rw [ho] at hc
    refine Pull.keeps_pipeline fun q hq => ?_
    obtain rfl := hnet q hq
    dsimp only [Option.bind_some] at hc ⊢
    cases hs : q.network.find? id with
    | none => exact Pull.keeps_throw _
    | some s =>
      rw [hs] at hc
      exact Pull.keeps_depth hnet (Pull.keeps_service hnet hlog _ s 0 none hc)

lemma Rendering.keeps_go {P : Pipeline → Prop} {request : Pull Progress}
    (hr : Pull.Keeps P request) (limit : ℕ) (sum : RenderSummary) (seen : List Ticket)
    {x : Pipeline × Ticket} (hx : P x.1) : P (Rendering.go request limit sum seen x).state.1 := by
  induction limit generalizing sum seen x with
  | zero => exact hx
  | succ limit ih =>
    have hm := hr x.1 x.2 hx
    rw [Rendering.go]
    generalize request x = m at hm
    cases m with
    | error e y => exact hm
    | ok last y =>
      dsimp only
      split
      · exact ih _ _ hm
      · exact hm

def Uses.Avoid (used : Uses) (keys : Set CacheKey) : Prop :=
  ∀ text ∈ used.texts, CacheKey.ofText text ∉ keys

section Requests

variable (hu : used.Avoid keys) (hc : p.cache.Filing)

include hu hc

lemma Pull.keeps_tends {s : Stage} (hs : (s.registration, s.options) ∈ used) :
    Pull.Keeps (fun q => q.network = p.network ∧ p.cache.Tends keys fits q.cache)
      (Pull.applyGain s) := by
  refine Pull.keeps_applyGain (fun q hq => ?_) fun _ _ _ hq => hq
  have hd : q.cache.Tends keys fits (q.drawGain s).2.cache :=
    Pipeline.tends_drawGain (hq.2.filing hc) (hu _ ⟨_, _, hs, rfl⟩)
  exact ⟨(Pipeline.drawGain_network s q).trans hq.1, hq.2.trans hd⟩

lemma Pipeline.tends_request [Memory] (r : Request) (t : Ticket)
    (hr : Pull.Covers used (p.network.passes r)) :
    p.cache.Tends keys fits (afterRequest (Pull.answer r (p, t))).cache := by
  have hm := (keeps_answer
    (P := fun q => q.network = p.network ∧ p.cache.Tends keys fits q.cache)
    (fun _ hq => hq.1) (fun _ _ hq => hq) r
    (fun u hu' hrole => Pull.keeps_tends hu hc (hr u hu' hrole)) p t ⟨rfl, .refl _⟩).2
  generalize Pull.answer r (p, t) = m at hm ⊢
  cases m <;> exact hm

lemma Pipeline.tends_render [Memory] (c : Conversion) (limit : ℕ) (t : Ticket)
    (hr : Pull.Covers used (p.network.passed c)) :
    p.cache.Tends keys fits (c.render limit (p, t)).state.1.cache :=
  (Rendering.keeps_go
    (c.keeps_run (P := fun q => q.network = p.network ∧ p.cache.Tends keys fits q.cache)
      (fun _ hq => hq.1) (fun _ _ hq => hq)
      fun u hu' hrole => Pull.keeps_tends hu hc (hr u hu' hrole))
    limit ⟨0, .unchanged⟩ [] (x := (p, t)) ⟨rfl, .refl _⟩).2

end Requests

end ColourPipeline
