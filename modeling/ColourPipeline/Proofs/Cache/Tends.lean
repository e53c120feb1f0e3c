import ColourPipeline.Proofs.Cache.Slots

/-! What may happen to the slots of some keys while a cache is in use for others. -/

namespace ColourPipeline

namespace ObjectCache

variable {keys : Set CacheKey} {fits : CacheKey → Entity → Prop} {c c' c'' : ObjectCache}
  {id i : SlotId} {k : CacheKey} {e : Entity}

structure Tends (keys : Set CacheKey) (fits : CacheKey → Entity → Prop) (c c' : ObjectCache) :
    Prop where
  key : ∀ id k, c.key? id = some k → c'.key? id = some k
  filed : ∀ k id, c'.filed? k = some id →
    c.filed? k = some id ∨ c.key? id = none ∧ c'.key? id = some k
  stays : ∀ k ∈ keys, ∀ id e, c.key? id = some k → c'.filed? k = some id →
    c.entry? id = some e → entry? c' id = some e
  fits : ∀ k ∈ keys, ∀ id e, c'.key? id = some k → entry? c' id = some e →
    c.entry? id = some e ∨ fits k e

lemma exists_key?_of_entry? (h : c.entry? id = some e) : ∃ k, c.key? id = some k := by
  rw [ObjectCache.entry?] at h
  cases hs : c.slots[id]? with
  | none =>
    rw [hs] at h
    cases h
  | some s => exact ⟨s.key, by rw [key?, hs]; rfl⟩

lemma Tends.refl (c : ObjectCache) : c.Tends keys fits c :=
  ⟨fun _ _ h => h, fun _ _ h => .inl h, fun _ _ _ _ _ _ h => h, fun _ _ _ _ _ h => .inl h⟩

lemma Tends.trans (h : c.Tends keys fits c') (h' : c'.Tends keys fits c'') :
    c.Tends keys fits c'' := by
  have hnone {id : SlotId} (hn : c'.key? id = none) : c.key? id = none := by
    rw [Option.eq_none_iff_forall_ne_some] at hn ⊢
    exact fun k hk => hn k (h.key id k hk)
  refine ⟨fun id k hk => h'.key id k (h.key id k hk), fun k id hf => ?_,
    fun k hk id e hkey hf he => ?_, fun k hk id e hkey he => ?_⟩
  · rcases h'.filed k id hf with hf | ⟨hn, hkey⟩
    · rcases h.filed k id hf with hf | ⟨hn, hkey⟩
      · exact .inl hf
      · exact .inr ⟨hn, h'.key id k hkey⟩
    · exact .inr ⟨hnone hn, hkey⟩
  · have hkey' := h.key id k hkey
    rcases h'.filed k id hf with hf' | ⟨hn, -⟩
    · exact h'.stays k hk id e hkey' hf (h.stays k hk id e hkey hf' he)
    · rw [hn] at hkey'
      cases hkey'
  · rcases h'.fits k hk id e hkey he with he' | hfits
    · obtain ⟨j, hj⟩ := exists_key?_of_entry? he'
      obtain rfl : j = k := Option.some.inj ((h'.key id j hj).symm.trans hkey)
      exact h.fits j hk id e hj he'
    · exact .inr hfits

def Filing (c : ObjectCache) : Prop := ∀ k id, c.filed? k = some id → c.key? id = some k

lemma Tends.filing (h : c.Tends keys fits c') (hc : c.Filing) : c'.Filing := by
  intro k id hf
  rcases h.filed k id hf with hf | ⟨-, hk⟩
  · exact h.key id k (hc k id hf)
  · exact hk

section Operations

lemma tends_of_views (hk : ∀ i, c'.key? i = c.key? i) (hf : ∀ k, c'.filed? k = c.filed? k)
    (he : ∀ i, entry? c' i = c.entry? i) : c.Tends keys fits c' where
  key i _ h := (hk i).trans h
  filed k _ h := .inl ((hf k).symm.trans h)
  stays _ _ i _ _ _ h := (he i).trans h
  fits _ _ i _ _ h := .inl ((he i).symm.trans h)

lemma tends_hold (id : SlotId) : c.Tends keys fits (c.hold id) :=
  tends_of_views (fun _ => key?_hold) (fun _ => filed?_hold) fun _ => entry?_hold

lemma tends_drop (id : SlotId) : c.Tends keys fits (c.drop id) :=
  tends_of_views (fun _ => key?_drop) (fun _ => filed?_drop) fun _ => entry?_drop

lemma tends_fresh : c.Tends keys fits c.fresh.2 :=
  tends_of_views (fun _ => rfl) (fun _ => rfl) fun _ => rfl

lemma tends_clear : c.Tends keys fits c.clear where
  key _ _ h := h
  filed _ _ h := by cases h
  stays _ _ _ _ _ h := by cases h
  fits _ _ _ _ _ h := .inl h

lemma tends_lookup (text : String) : c.Tends keys fits (c.lookup text).2 where
  key i k h := key?_lookup_of_key? h text
  filed k i h := by
    rw [filed?_lookup] at h
    split at h
    · rename_i hk
      subst hk
      obtain rfl := Option.some.inj h
      cases hf : c.filed? (CacheKey.ofText text) with
      | some i => exact .inl (by rw [lookup_of_filed hf])
      | none =>
        rw [lookup_of_unfiled hf]
        exact .inr ⟨key?_eq_none.2 le_rfl, by rw [key?_hold, key?_file, if_pos rfl]⟩
    · exact .inl h
  stays _ _ _ _ _ _ h := by rwa [entry?_lookup]
  fits _ _ i _ _ h := .inl (by rwa [entry?_lookup] at h)

lemma tends_release (id : SlotId) : c.Tends keys fits (c.release id).2 := by
  rcases release_cases (c := c) id with ⟨j, hj, -, -, he⟩ | ⟨-, he⟩
  · rw [he]
    refine ⟨fun i k h => key?_evict.trans h, fun k i h => ?_, fun k _ i e hkey h hi => ?_,
      fun k _ i e _ hi => ?_⟩
    · rw [filed?_evict] at h
      split at h
      · cases h
      · exact .inl h
    · -- What stays filed is another slot than the one that goes.
      rw [filed?_evict] at h
      split at h
      · cases h
      · rename_i hne
        rw [entry?_evict, if_neg, hi]
        rintro rfl
        exact hne (Option.some.inj (hkey.symm.trans hj))
    · rw [entry?_evict] at hi
      split at hi
      · cases hi
      · exact .inl hi
  · rw [he]
    exact tends_drop id

lemma tends_set_elsewhere (h : ∀ k ∈ keys, c.key? id ≠ some k) (e : Entity) :
    c.Tends keys fits (c.set id e) where
  key i k hk := by rw [key?_set, hk]
  filed k i hf := .inl (by rwa [filed?_set] at hf)
  stays k hk i d hkey _ hi := by
    rw [entry?_set_of_ne, hi]
    rintro rfl
    exact h k hk hkey
  fits k hk i d hkey hi := by
    rw [key?_set] at hkey
    rw [entry?_set_of_ne] at hi
    · exact .inl hi
    · rintro rfl
      exact h k hk hkey

lemma tends_set (hn : c.entry? id = none)
    (h : ∀ k ∈ keys, c.key? id = some k → fits k (c.kept e).1) :
    c.Tends keys fits (c.set id e) where
  key i k hk := by rw [key?_set, hk]
  filed k i hf := .inl (by rwa [filed?_set] at hf)
  stays k _ i d _ _ hi := by
    rw [entry?_set_of_ne, hi]
    rintro rfl
    rw [hn] at hi
    cases hi
  fits k hk i d hkey hi := by
    rw [key?_set] at hkey
    by_cases hid : i = id
    · subst hid
      rw [entry?_set (lt_of_key? hkey), if_pos rfl] at hi
      exact .inr (Option.some.inj hi ▸ h k hk hkey)
    · exact .inl (by rwa [entry?_set_of_ne hid] at hi)

end Operations

end ObjectCache

end ColourPipeline
