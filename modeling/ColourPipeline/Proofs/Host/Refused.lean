import ColourPipeline.Proofs.Cache.Counted
import ColourPipeline.Proofs.Host.Load

/-! Payloads that are refused, and the empty slots they leave. -/

namespace ColourPipeline

namespace ObjectCache

variable {keys keys' : Finset CacheKey} {c c' c'' : ObjectCache} {text : String} {id : SlotId}

structure Extends (keys : Finset CacheKey) (c c' : ObjectCache) : Prop where
  entry : ∀ id, entry? c' id = c.entry? id
  filed : ∀ k id, c.filed? k = some id → c'.filed? k = some id
  fresh : ∀ k, c.filed? k = none → (c'.filed? k ≠ none ↔ k ∈ keys)
  empty : ∀ k id, c.filed? k = none → c'.filed? k = some id → entry? c' id = none
  size : c'.size = c.size + (keys.filter fun k => c.filed? k = none).card

lemma Extends.refl (c : ObjectCache) : Extends ∅ c c where
  entry _ := rfl
  filed _ _ h := h
  fresh k h := by simp [h]
  empty k id h h' := by
    rw [h] at h'
    cases h'
  size := rfl

lemma Extends.trans (h : Extends keys c c') (h' : Extends keys' c' c'') :
    Extends (keys ∪ keys') c c'' where
  entry id := (h'.entry id).trans (h.entry id)
  filed k id hk := h'.filed k id (h.filed k id hk)
  fresh k hk := by
    have hkeys := h.fresh k hk
    rw [Finset.mem_union, ← hkeys]
    cases hk' : c'.filed? k with
    | none => simp [h'.fresh k hk']
    | some id => simp [h'.filed k id hk']
  empty k id hk hk'' := by
    cases hk' : c'.filed? k with
    | none => exact h'.empty k id hk' hk''
    | some i =>
      obtain rfl : i = id := Option.some.inj ((h'.filed k i hk').symm.trans hk'')
      rw [h'.entry, h.empty k i hk hk']
  size := by
    have hfresh (k : CacheKey) : c'.filed? k = none ↔ c.filed? k = none ∧ k ∉ keys := by
      cases hk : c.filed? k with
      | none => simpa using not_congr (h.fresh k hk)
      | some id => simp [h.filed k id hk]
    have hsplit : (keys ∪ keys').filter (fun k => c.filed? k = none) =
        keys.filter (fun k => c.filed? k = none) ∪ keys'.filter fun k => c'.filed? k = none := by
      ext k
      simp only [Finset.mem_filter, Finset.mem_union, hfresh]
      tauto
    have hdisjoint : Disjoint (keys.filter fun k => c.filed? k = none)
        (keys'.filter fun k => c'.filed? k = none) := by
      rw [Finset.disjoint_left]
      intro k hk hk'
      simp only [Finset.mem_filter, hfresh] at hk hk'
      exact hk'.2.2 hk.1
    rw [h'.size, h.size, hsplit, Finset.card_union_of_disjoint hdisjoint, add_assoc]

lemma Extends.filed?_ne_none (h : Extends keys c c') {k : CacheKey} (hk : k ∈ keys) :
    c'.filed? k ≠ none := by
  cases hc : c.filed? k with
  | none => exact (h.fresh k hc).2 hk
  | some id => simp [h.filed k id hc]

lemma Extends.of_filed (h : Extends keys c c') (hkeys : ∀ k ∈ keys, c.filed? k ≠ none) :
    Extends ∅ c c' where
  entry := h.entry
  filed := h.filed
  fresh k hk := by
    have hnot : k ∉ keys := fun hk' => hkeys k hk' hk
    simpa [hnot] using h.fresh k hk
  empty := h.empty
  size := by
    rw [h.size, Finset.filter_false_of_mem hkeys, Finset.filter_empty]

lemma Extends.filed?_eq_iff (h : Extends keys c c') :
    (∀ k, c'.filed? k = c.filed? k) ↔ ∀ k ∈ keys, c.filed? k ≠ none := by
  refine ⟨fun hsame k hk hnone => ?_, fun hkeys k => ?_⟩
  · have hfresh := (h.fresh k hnone).2 hk
    rw [hsame, hnone] at hfresh
    exact hfresh rfl
  · cases hk : c.filed? k with
    | some id => exact h.filed k id hk
    | none =>
      by_contra hne
      exact hkeys k ((h.fresh k hk).1 hne) hk

lemma Extends.entry?_sought_eq_none (h : Extends keys c c')
    (he : c.entry? (c.sought text).1 = none) : c'.entry? (c'.sought text).1 = none := by
  cases hk : c'.filed? (CacheKey.ofText text) with
  | none => simp [sought, lookup_of_unfiled hk, ObjectCache.entry?]
  | some id =>
    rw [sought_of_filed hk]
    cases hk' : c.filed? (CacheKey.ofText text) with
    | none => exact h.empty _ id hk' hk
    | some i =>
      obtain rfl : i = id := Option.some.inj ((h.filed _ i hk').symm.trans hk)
      rwa [h.entry, ← sought_of_filed hk']

lemma size_lookup_of_filed (h : c.filed? (CacheKey.ofText text) = some id) :
    (c.lookup text).2.size = c.size := by
  rw [lookup_of_filed h]
  rfl

lemma size_lookup_of_unfiled (h : c.filed? (CacheKey.ofText text) = none) :
    (c.lookup text).2.size = c.size + 1 := by
  have hs := size_lookup c text
  rw [lookup_of_unfiled h] at hs ⊢
  change _ + c.directory.misses = c.size + (c.directory.misses + 1) at hs
  omega

lemma extends_sought (c : ObjectCache) (text : String) :
    Extends {CacheKey.ofText text} c (c.sought text).2 where
  entry _ := entry?_sought text
  filed k id hk := by
    rw [filed?_sought]
    split
    · rename_i h
      rw [sought_of_filed (h ▸ hk)]
    · exact hk
  fresh k hk := by
    rw [filed?_sought, Finset.mem_singleton]
    split <;> simp_all
  empty k id hk hk' := by
    rw [filed?_sought] at hk'
    split at hk'
    · rename_i h
      obtain rfl := Option.some.inj hk'
      rw [entry?_sought, sought, lookup_of_unfiled (h ▸ hk), ObjectCache.entry?]
      simp
    · rw [hk] at hk'
      cases hk'
  size := by
    change (c.lookup text).2.size = _
    rw [Finset.filter_singleton]
    cases h : c.filed? (CacheKey.ofText text) with
    | none => simp [size_lookup_of_unfiled h]
    | some id => simp [size_lookup_of_filed h]

end ObjectCache

namespace Host

variable {h : Host} {pattern : String} {bs : Bytes} {flags : UInt32} {c : ObjectCache}

lemma filing_empty : ObjectCache.Filing {} := fun _ _ hk => by cases hk

lemma filing_load (hc : c.Filing) : (Work.left (h.load pattern bs flags c)).Filing := by
  have hs (text : String) : (c.sought text).2.Filing :=
    (@ObjectCache.tends_sought c ∅ (fun _ _ => False) text).filing hc
  cases hq : h.registry.first pattern .dataCodec with
  | error e =>
    rw [load_of_error hq]
    exact hc
  | ok q =>
    rw [load_of_ok hq]
    cases c.entry? (c.sought (loadKey q bs)).1 with
    | some e => exact hs _
    | none =>
      dsimp only
      rw [loadInto_eq (ObjectCache.key?_sought hc _)]
      cases Profile.parse bs with
      | error f => exact hs _
      | ok p =>
        have hset : (c.sought (loadKey q bs)).2.fresh.2.Tends ∅ (fun _ _ => False)
            ((c.sought (loadKey q bs)).2.fresh.2.set (c.sought (loadKey q bs)).1
              (.ofProfile (c.sought (loadKey q bs)).2.fresh.1 p)) :=
          ObjectCache.tends_set_elsewhere (fun _ hk => absurd hk (Set.notMem_empty _)) _
        exact (ObjectCache.tends_fresh.trans hset).filing (hs _)

lemma filing_perform {p : Pipeline} (hp : p.cache.Filing) (d : Job) :
    (h.perform p d).cache.Filing := by
  -- There is no payload to mind, so any request will do.
  have hu : Uses.Avoid Set.univ (profileKey '' ∅) := by
    rw [Set.image_empty]
    exact fun _ _ => Set.notMem_empty _
  cases d with
  | load pattern bs flags => exact filing_load hp
  | render m c limit t =>
    have hm : p.cache.Minds ∅ (h.perform p (.render m c limit t)).cache :=
      Pipeline.tends_render hu hp c limit t fun _ _ _ => Set.mem_univ _
    exact hm.filing hp
  | act a =>
    have ha : p.Permits ∅ Set.univ (.act a) := by
      cases a with
      | request m r t => exact fun _ _ _ => Set.mem_univ _
      | fill id e => exact fun _ hbs => absurd hbs (Set.notMem_empty _)
      | _ => trivial
    exact (minds_act hu hp ha).filing hp

lemma filing_after (h : Host) {p : Pipeline} (hp : p.cache.Filing) (jobs : List Job) :
    (h.after p jobs).cache.Filing := by
  induction jobs generalizing p with
  | nil => exact hp
  | cons d jobs ih => exact ih (filing_perform hp d)

structure Offer where
  pattern : String
  bytes : Bytes
  flags : UInt32

def Offer.job (o : Offer) : Job := .load o.pattern o.bytes o.flags

def Refuses (h : Host) : Pipeline → List Offer → Prop
  | _, [] => True
  | p, o :: os => (∃ e c, h.load o.pattern o.bytes o.flags p.cache = .error e c) ∧
      h.Refuses (h.perform p o.job) os

def slotKeys (h : Host) : List Offer → Finset CacheKey
  | [] => ∅
  | o :: os =>
    (match h.registry.first o.pattern .dataCodec with
      | .ok q => {CacheKey.ofText (loadKey q o.bytes)}
      | .error _ => ∅) ∪ h.slotKeys os

lemma refusal_cases {o : Offer} {e : PipelineError} {c' : ObjectCache} (hc : c.Filing)
    (hl : h.load o.pattern o.bytes o.flags c = .error e c') :
    (h.registry.first o.pattern .dataCodec = .error e ∧ c' = c) ∨
      ∃ q f, h.registry.first o.pattern .dataCodec = .ok q ∧ Profile.parse o.bytes = .error f ∧
        c.entry? (c.sought (loadKey q o.bytes)).1 = none ∧ e = .codec f ∧
        c' = (c.sought (loadKey q o.bytes)).2 := by
  cases hq : h.registry.first o.pattern .dataCodec with
  | error f =>
    rw [load_of_error hq] at hl
    cases hl
    exact .inl ⟨rfl, rfl⟩
  | ok q =>
    rw [load_of_ok hq] at hl
    cases he : c.entry? (c.sought (loadKey q o.bytes)).1 with
    | some d =>
      rw [he] at hl
      cases hl
    | none =>
      rw [he] at hl
      dsimp only at hl
      rw [loadInto_eq (ObjectCache.key?_sought hc _)] at hl
      cases hp : Profile.parse o.bytes with
      | error f =>
        rw [hp] at hl
        cases hl
        exact .inr ⟨q, f, rfl, rfl, he, rfl, rfl⟩
      | ok p =>
        rw [hp] at hl
        cases hl

lemma load_of_parse_error {o : Offer} {q : Provider} {f : CodecFault} (hc : c.Filing)
    (hq : h.registry.first o.pattern .dataCodec = .ok q) (hp : Profile.parse o.bytes = .error f)
    (he : c.entry? (c.sought (loadKey q o.bytes)).1 = none) :
    h.load o.pattern o.bytes o.flags c =
      .error (.codec f) (c.sought (loadKey q o.bytes)).2 := by
  rw [load_of_ok hq, he]
  dsimp only
  rw [loadInto_eq (ObjectCache.key?_sought hc _), hp]

lemma extends_load_of_error {o : Offer} {e : PipelineError} {c' : ObjectCache} (hc : c.Filing)
    (hl : h.load o.pattern o.bytes o.flags c = .error e c') :
    ObjectCache.Extends (h.slotKeys [o]) c c' := by
  rw [slotKeys, slotKeys, Finset.union_empty]
  obtain ⟨hq, rfl⟩ | ⟨q, f, hq, -, -, -, rfl⟩ := refusal_cases hc hl
  · rw [hq]
    exact .refl c'
  · rw [hq]
    exact ObjectCache.extends_sought c _

lemma load_of_extends {o : Offer} {e : PipelineError} {c' c'' : ObjectCache}
    {keys : Finset CacheKey} (hc : c.Filing) (hl : h.load o.pattern o.bytes o.flags c = .error e c')
    (hc'' : c''.Filing) (hx : ObjectCache.Extends keys c c'') :
    ∃ d, h.load o.pattern o.bytes o.flags c'' = .error e d := by
  obtain ⟨hq, -⟩ | ⟨q, f, hq, hp, he, rfl, -⟩ := refusal_cases hc hl
  · exact ⟨_, load_of_error hq⟩
  · exact ⟨_, load_of_parse_error hc'' hq hp (hx.entry?_sought_eq_none he)⟩

lemma slotKeys_cons (h : Host) (o : Offer) (os : List Offer) :
    h.slotKeys (o :: os) = h.slotKeys [o] ∪ h.slotKeys os := by
  rw [slotKeys, slotKeys, slotKeys, Finset.union_empty]

lemma mem_slotKeys {k : CacheKey} {os : List Offer} :
    k ∈ h.slotKeys os ↔ ∃ o ∈ os, k ∈ h.slotKeys [o] := by
  induction os with
  | nil => simp [slotKeys]
  | cons o os ih => rw [slotKeys_cons, Finset.mem_union, ih, List.exists_mem_cons_iff]

section Refuses

variable {p p' : Pipeline} {os : List Offer} {keys : Finset CacheKey}

lemma extends_perform_of_error {o : Offer} {e : PipelineError} {c' : ObjectCache}
    (hp : p.cache.Filing) (hl : h.load o.pattern o.bytes o.flags p.cache = .error e c') :
    ObjectCache.Extends (h.slotKeys [o]) p.cache (h.perform p o.job).cache := by
  rw [Offer.job, cache_perform_load, hl]
  exact extends_load_of_error hp hl

lemma extends_after_of_refuses (hp : p.cache.Filing) (hr : h.Refuses p os) :
    ObjectCache.Extends (h.slotKeys os) p.cache (h.after p (os.map Offer.job)).cache := by
  induction os generalizing p with
  | nil => exact .refl _
  | cons o os ih =>
    obtain ⟨⟨e, c', hl⟩, hr⟩ := hr
    rw [slotKeys_cons]
    exact (extends_perform_of_error hp hl).trans (ih (filing_perform hp o.job) hr)

lemma refused_after (hp : p.cache.Filing) (hr : h.Refuses p os) {o : Offer} (ho : o ∈ os) :
    ∃ e c', h.load o.pattern o.bytes o.flags (h.after p (os.map Offer.job)).cache =
      .error e c' := by
  induction os generalizing p with
  | nil => cases ho
  | cons o' os ih =>
    obtain ⟨⟨e, c', hl⟩, hr'⟩ := hr
    rcases List.mem_cons.1 ho with rfl | ho
    · have hx : ObjectCache.Extends (h.slotKeys (o :: os)) p.cache
          (h.after p ((o :: os).map Offer.job)).cache :=
        extends_after_of_refuses hp ⟨⟨e, c', hl⟩, hr'⟩
      obtain ⟨d, hd⟩ := load_of_extends hp hl (filing_after h hp _) hx
      exact ⟨e, d, hd⟩
    · exact ih (filing_perform hp o'.job) hr' ho

lemma refuses_of_extends (hp : p.cache.Filing)
    (ho : ∀ o ∈ os, ∃ e c', h.load o.pattern o.bytes o.flags p.cache = .error e c')
    (hp' : p'.cache.Filing) (hx : ObjectCache.Extends keys p.cache p'.cache) :
    h.Refuses p' os := by
  induction os generalizing p' keys with
  | nil => trivial
  | cons o os ih =>
    obtain ⟨e, c', hl⟩ := ho o List.mem_cons_self
    obtain ⟨d, hd⟩ := load_of_extends hp hl hp' hx
    exact ⟨⟨e, d, hd⟩, ih (fun o' ho' => ho o' (List.mem_cons_of_mem o ho'))
      (filing_perform hp' o.job) (hx.trans (extends_perform_of_error hp' hd))⟩

lemma refuses_of_forall (hp : p.cache.Filing)
    (ho : ∀ o ∈ os, ∃ e c', h.load o.pattern o.bytes o.flags p.cache = .error e c') :
    h.Refuses p os :=
  refuses_of_extends hp ho hp (.refl _)

end Refuses

/-- Whatever was done before, payloads that are refused leave a slot behind for each key that had
none, and change nothing else; when they are offered again they are refused again, and then
everything stays. -/
theorem extends_refused (h : Host) (jobs : List Job) (os : List Offer)
    (hr : h.Refuses (h.after {} jobs) os) :
    ObjectCache.Extends (h.slotKeys os) (h.after {} jobs).cache
      (h.after (h.after {} jobs) (os.map Offer.job)).cache ∧
    ((∀ k, (h.after (h.after {} jobs) (os.map Offer.job)).cache.filed? k =
        (h.after {} jobs).cache.filed? k) ↔
      ∀ k ∈ h.slotKeys os, (h.after {} jobs).cache.filed? k ≠ none) ∧
    ∀ os' ⊆ os, h.Refuses (h.after (h.after {} jobs) (os.map Offer.job)) os' ∧
      ObjectCache.Extends ∅ (h.after (h.after {} jobs) (os.map Offer.job)).cache
        (h.after (h.after (h.after {} jobs) (os.map Offer.job)) (os'.map Offer.job)).cache := by
  have hp : (h.after {} jobs).cache.Filing := filing_after h filing_empty jobs
  have hx := extends_after_of_refuses hp hr
  have hp' := filing_after h hp (os.map Offer.job)
  refine ⟨hx, hx.filed?_eq_iff, fun os' hos => ?_⟩
  have hr' := refuses_of_forall hp' fun o ho => refused_after hp hr (hos ho)
  refine ⟨hr', (extends_after_of_refuses hp' hr').of_filed fun k hk => hx.filed?_ne_none ?_⟩
  obtain ⟨o, ho, hko⟩ := mem_slotKeys.1 hk
  exact mem_slotKeys.2 ⟨o, hos ho, hko⟩

def nothing : Offer := ⟨"//icc.blob", [], 0⟩

theorem extends_refused_nothing :
    standard.Refuses {} (List.replicate 3 nothing) ∧
      (standard.after {} ((List.replicate 3 nothing).map Offer.job)).cache.size = 1 := by
  have hr : standard.Refuses {} (List.replicate 3 nothing) :=
    refuses_of_forall filing_empty fun o ho => by
      obtain rfl := List.eq_of_mem_replicate ho
      exact ⟨_, _, load_of_parse_error filing_empty rfl rfl rfl⟩
  refine ⟨hr, (extends_refused standard [] _ hr).1.size.trans ?_⟩
  have hkeys : ∃ k, standard.slotKeys (List.replicate 3 nothing) = {k} :=
    ⟨_, by
      change {_} ∪ ({_} ∪ ({_} ∪ ∅)) = _
      rw [Finset.union_empty, Finset.union_self, Finset.union_self]⟩
  obtain ⟨k, hk⟩ := hkeys
  rw [hk, Finset.filter_singleton]
  rfl

theorem not_restored_nothing : ¬ ∀ (h : Host) (jobs : List Job) (o : Offer) (e : PipelineError)
    (c : ObjectCache), h.load o.pattern o.bytes o.flags (h.after {} jobs).cache = .error e c →
      ∀ k, c.filed? k = (h.after {} jobs).cache.filed? k := by
  intro hsame
  obtain ⟨q, hq⟩ : ∃ q, standard.registry.first nothing.pattern .dataCodec = .ok q := ⟨_, rfl⟩
  have hk := hsame standard [] nothing _ _ (load_of_parse_error filing_empty hq rfl rfl)
    (CacheKey.ofText (loadKey q nothing.bytes))
  rw [ObjectCache.filed?_sought, if_pos rfl] at hk
  cases hk

end Host

end ColourPipeline
