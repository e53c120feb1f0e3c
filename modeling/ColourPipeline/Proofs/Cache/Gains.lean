import ColourPipeline.Proofs.Cache.Slots
import ColourPipeline.Proofs.Gain
import ColourPipeline.Proofs.Options.Key

/-! Gains that are kept under the texts of options, and options whose texts are the same. -/

namespace ColourPipeline

abbrev Uses := Set (Path × OptionSet)

def Uses.Separate (used : Uses) : Prop :=
  ∀ r s t, (r, s) ∈ used → (r, t) ∈ used → s.Alike t → Gain.ofOptions s = Gain.ofOptions t

def Uses.Apart (now used : Uses) : Prop :=
  ∀ r s t, (r, s) ∈ used → (r, t) ∈ now → s.Alike t → Gain.ofOptions s = Gain.ofOptions t

def Uses.finite (used : Uses) : Uses := {u ∈ used | u.2.IsFinite}

lemma Uses.apart_finite (used : Uses) : used.finite.Apart used := fun _ _ _ _ ht ha => by
  rw [ha.eq_of_isFinite ht.2]

def Uses.texts (used : Uses) : Set String := {text | ∃ r s, (r, s) ∈ used ∧ text = gainText r s}

lemma Uses.injOn_singleton {α : Type} (f : String → α) (n : ℕ) (r : Path) (s : OptionSet) :
    Set.InjOn f {text ∈ Uses.texts {(r, s)} | n ≤ text.utf8ByteSize} := by
  apply Set.Subsingleton.injOn
  rintro x ⟨⟨r', s', hs, rfl⟩, -⟩ y ⟨⟨r'', s'', hs', rfl⟩, -⟩
  cases hs
  cases hs'
  rfl

def Entity.gain? (e : Entity) : Option Gain :=
  if e.envelope.kind = .transform then e.content.gain? else none

def CacheSlot.Fits (used : Uses) (slot : CacheSlot) : Prop :=
  ∀ k ∈ slot.entry.bind (·.gain?), ∀ r s, (r, s) ∈ used →
    slot.key = CacheKey.ofText (gainText r s) → k = Gain.ofOptions s

namespace ObjectCache

structure Sound (used : Uses) (c : ObjectCache) : Prop where
  filed : ∀ k id, c.filed? k = some id → ∃ slot, c.slots[id]? = some slot ∧ slot.key = k
  fits : ∀ slot ∈ c.slots, slot.Fits used

variable {used : Uses} {c : ObjectCache}

lemma sound_empty : Sound used {} := by
  constructor
  · intro k id h
    cases h
  · intro slot h
    cases h

lemma Sound.of_slots {d : ObjectCache} (h : Sound used c) (hs : d.slots = c.slots)
    (hf : ∀ k id, d.filed? k = some id → c.filed? k = some id) : Sound used d := by
  constructor
  · intro k id hk
    rw [hs]
    exact h.filed k id (hf k id hk)
  · rw [hs]
    exact h.fits

lemma Sound.update {f : CacheSlot → CacheSlot} (h : Sound used c) (id : SlotId)
    (hk : ∀ slot, (f slot).key = slot.key)
    (hf : ∀ slot, c.slots[id]? = some slot → (f slot).Fits used) : Sound used (c.update f id) := by
  constructor
  · intro k i hi
    obtain ⟨slot, hs, rfl⟩ := h.filed k i hi
    refine ⟨if id = i then f slot else slot, ?_, ?_⟩
    · rw [ObjectCache.update, List.getElem?_modify, hs]
      by_cases hid : id = i <;> simp [hid]
    · split
      · exact hk slot
      · rfl
  · intro slot hslot
    obtain ⟨i, hi⟩ := List.mem_iff_getElem?.1 hslot
    rw [ObjectCache.update, List.getElem?_modify] at hi
    cases hc : c.slots[i]? with
    | none => simp [hc] at hi
    | some s =>
      rw [hc] at hi
      by_cases hid : id = i
      · subst hid
        obtain rfl : f s = slot := by simpa using hi
        exact hf s hc
      · obtain rfl : s = slot := by simpa [hid] using hi
        exact h.fits s (List.mem_of_getElem? hc)

lemma Sound.slot (h : Sound used c) {id : SlotId} {slot : CacheSlot}
    (hs : c.slots[id]? = some slot) : slot.Fits used :=
  h.fits slot (List.mem_of_getElem? hs)

lemma Sound.hold (h : Sound used c) (id : SlotId) : Sound used (c.hold id) :=
  h.update id (fun _ => rfl) fun _ hs k hk => h.slot hs k hk

lemma Sound.drop (h : Sound used c) (id : SlotId) : Sound used (c.drop id) :=
  h.update id (fun _ => rfl) fun _ hs k hk => h.slot hs k hk

lemma Sound.evict (h : Sound used c) (id : SlotId) (k : CacheKey) : Sound used (c.evict id k) := by
  have hu := h.update (f := fun s => { s with entry := none, handles := 0 }) id (fun _ => rfl)
    fun slot _ k hk => by cases hk
  refine hu.of_slots (d := c.evict id k) rfl ?_
  intro j i hj
  by_cases hjk : j = k
  · subst hjk
    rw [ObjectCache.filed?, ObjectCache.evict, Table.lookup_remove_self] at hj
    cases hj
  · rwa [ObjectCache.filed?, ObjectCache.evict, Table.lookup_remove_of_ne hjk] at hj

lemma Sound.release (h : Sound used c) (id : SlotId) : Sound used (c.release id).2 := by
  rw [ObjectCache.release]
  split
  · split
    · exact h.evict id _
    · exact h.drop id
  · exact h

lemma Sound.clear (h : Sound used c) : Sound used c.clear :=
  h.of_slots rfl fun k id hk => by cases hk

lemma Sound.file (h : Sound used c) (k : CacheKey) : Sound used (c.file k) := by
  constructor
  · intro j i hj
    by_cases hjk : j = k
    · subst hjk
      obtain rfl : c.slots.length = i := by
        simpa [ObjectCache.filed?, ObjectCache.file] using hj
      exact ⟨{ key := j }, by simp [ObjectCache.file], rfl⟩
    · rw [ObjectCache.filed?, ObjectCache.file, Table.lookup_put_of_ne hjk] at hj
      obtain ⟨slot, hs, hk⟩ := h.filed j i hj
      refine ⟨slot, ?_, hk⟩
      rw [ObjectCache.file, List.getElem?_append_left (List.getElem?_eq_some_iff.1 hs).1]
      exact hs
  · intro slot hs
    rcases List.mem_append.1 hs with hs | hs
    · exact h.fits slot hs
    · obtain rfl := List.mem_singleton.1 hs
      intro g hg
      cases hg

def KeyAt (c : ObjectCache) (id : SlotId) (k : CacheKey) : Prop :=
  ∃ slot, c.slots[id]? = some slot ∧ slot.key = k

lemma keyAt_iff {id : SlotId} {k : CacheKey} : c.KeyAt id k ↔ c.key? id = some k := by
  rw [KeyAt, key?, Option.map_eq_some_iff]

lemma KeyAt.drop {k : CacheKey} {id : SlotId} (h : KeyAt c id k) (i : SlotId) :
    KeyAt (c.drop i) id k := by
  rw [keyAt_iff] at h ⊢
  rw [key?_drop, h]

lemma KeyAt.release {k : CacheKey} {id : SlotId} (h : KeyAt c id k) (i : SlotId) :
    KeyAt (c.release i).2 id k := by
  rw [keyAt_iff] at h ⊢
  rw [key?_release, h]

lemma Sound.lookup (h : Sound used c) (text : String) : Sound used (c.lookup text).2 := by
  cases hf : c.filed? (CacheKey.ofText text) with
  | none =>
    rw [lookup_of_unfiled hf]
    exact (h.file _).hold _
  | some id =>
    rw [lookup_of_filed hf]
    exact (h.of_slots (d := c.countHit) rfl fun _ _ hk => hk).hold _

lemma Sound.key_lookup (h : Sound used c) (text : String) :
    KeyAt (c.lookup text).2 (c.lookup text).1 (CacheKey.ofText text) :=
  (h.lookup text).filed _ _ (by rw [filed?_lookup, if_pos rfl])

lemma gain?_kept (e : Entity) : (c.kept e).1.gain? = e.gain? := by
  obtain ⟨envelope, content⟩ := e
  cases content <;> simp [ObjectCache.kept, Content.isCopied, Entity.gain?, Entity.copy,
    Content.gain?]

lemma sound_kept (h : Sound used c) (e : Entity) : Sound used (c.kept e).2 := by
  rw [ObjectCache.kept]
  split
  · exact h.of_slots rfl fun _ _ hk => hk
  · exact h

lemma get?_bind_gain? (id : SlotId) :
    (c.get? id .transform).bind (·.content.gain?) = (c.entry? id).bind (·.gain?) := by
  rw [ObjectCache.get?]
  cases c.entry? id with
  | none => rfl
  | some e =>
    by_cases he : e.envelope.kind = .transform <;> simp [Entity.gain?, Option.filter, he]

def Welcomes (used : Uses) (c : ObjectCache) (id : SlotId) (e : Entity) : Prop :=
  ∀ slot, c.slots[id]? = some slot → { slot with entry := some e }.Fits used

lemma Sound.set (h : Sound used c) {id : SlotId} {e : Entity} (he : Welcomes used c id e) :
    Sound used (c.set id e) := by
  refine (sound_kept h e).update id (fun _ => rfl) fun slot hs k hk => ?_
  rw [slots_kept] at hs
  have hg : (c.kept e).1.gain? = some k := hk
  rw [gain?_kept] at hg
  exact he slot hs k hg

end ObjectCache

end ColourPipeline
