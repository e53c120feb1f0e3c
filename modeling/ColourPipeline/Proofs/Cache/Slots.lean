import ColourPipeline.Cache.Store
import Mathlib

namespace ColourPipeline

lemma CacheKey.ofText_injOn {texts : Set String}
    (h : Set.InjOn (fun text => Digest.sha256 (Bytes.ofText text))
      {text ∈ texts | CacheKey.inlineLimit ≤ text.utf8ByteSize}) :
    Set.InjOn CacheKey.ofText texts := by
  intro x hx y hy hxy
  simp only [CacheKey.ofText] at hxy
  split at hxy
  · split at hxy
    · exact CacheKey.inline.inj hxy
    · cases hxy
  · rename_i hxl
    split at hxy
    · cases hxy
    · rename_i hyl
      exact h ⟨hx, not_lt.1 hxl⟩ ⟨hy, not_lt.1 hyl⟩ (CacheKey.digest.inj hxy)

namespace ObjectCache

variable {c : ObjectCache} {id i : SlotId} {k j : CacheKey} {text : String}

def key? (c : ObjectCache) (id : SlotId) : Option CacheKey := c.slots[id]?.map (·.key)

def handles (c : ObjectCache) (id : SlotId) : ℕ := (c.slots[id]?.map (·.handles)).getD 0

lemma key?_eq_none : c.key? id = none ↔ c.slots.length ≤ id := by
  simp [key?]

lemma lt_of_key? (h : c.key? id = some k) : id < c.slots.length := by
  by_contra hn
  rw [key?_eq_none.2 (not_lt.1 hn)] at h
  cases h

lemma handles_of_key? (h : c.key? id = none) : c.handles id = 0 := by
  rw [key?, Option.map_eq_none_iff] at h
  rw [handles, h]
  rfl

lemma slots_kept (e : Entity) : (c.kept e).2.slots = c.slots := by
  rw [ObjectCache.kept]
  split <;> rfl

lemma directory_kept (e : Entity) : (c.kept e).2.directory = c.directory := by
  rw [ObjectCache.kept]
  split <;> rfl

section Update

variable {f : CacheSlot → CacheSlot}

lemma getElem?_update (f : CacheSlot → CacheSlot) (id i : SlotId) :
    (c.update f id).slots[i]? = c.slots[i]?.map fun s => if i = id then f s else s := by
  rw [update, List.getElem?_modify]
  by_cases h : id = i
  · simp [h]
  · simp [h, Ne.symm h]

lemma key?_update (hf : ∀ s, (f s).key = s.key) : (c.update f id).key? i = c.key? i := by
  rw [key?, getElem?_update, key?]
  cases c.slots[i]? with
  | none => rfl
  | some s => by_cases h : i = id <;> simp [h, hf]

lemma entry?_update (hf : ∀ s, (f s).entry = s.entry) :
    entry? (c.update f id) i = c.entry? i := by
  rw [ObjectCache.entry?, getElem?_update, ObjectCache.entry?]
  cases c.slots[i]? with
  | none => rfl
  | some s => by_cases h : i = id <;> simp [h, hf]

lemma handles_update (g : ℕ → ℕ) (hg : ∀ s, (f s).handles = g s.handles) :
    (c.update f id).handles i =
      if i = id ∧ i < c.slots.length then g (c.handles i) else c.handles i := by
  rw [handles, getElem?_update, handles]
  by_cases hi : i < c.slots.length
  · by_cases h : i = id
    · subst h
      simp [hi, hg]
    · simp [h]
  · simp [hi]

end Update

section Operations

@[simp] lemma key?_hold : (c.hold id).key? i = c.key? i := key?_update fun _ => rfl

@[simp] lemma entry?_hold : entry? (c.hold id) i = c.entry? i := entry?_update fun _ => rfl

@[simp] lemma filed?_hold : (c.hold id).filed? k = c.filed? k := rfl

lemma handles_hold (h : id < c.slots.length) (i : SlotId) :
    (c.hold id).handles i = c.handles i + if id == i then 1 else 0 := by
  rw [hold, handles_update (· + 1) fun _ => rfl]
  by_cases hi : i = id
  · simp [hi, h]
  · simp [hi, Ne.symm hi]

@[simp] lemma key?_drop : (c.drop id).key? i = c.key? i := key?_update fun _ => rfl

@[simp] lemma entry?_drop : entry? (c.drop id) i = c.entry? i := entry?_update fun _ => rfl

@[simp] lemma filed?_drop : (c.drop id).filed? k = c.filed? k := rfl

lemma handles_drop (id i : SlotId) :
    (c.drop id).handles i = c.handles i - if id == i then 1 else 0 := by
  rw [drop, handles_update (· - 1) fun _ => rfl]
  by_cases hi : i = id
  · by_cases hl : id < c.slots.length
    · simp [hi, hl]
    · simp [hi, hl, handles_of_key? (key?_eq_none.2 (not_lt.1 hl))]
  · simp [hi, Ne.symm hi]

@[simp] lemma key?_file :
    (c.file k).key? i = if i = c.slots.length then some k else c.key? i := by
  rw [key?, file, key?]
  by_cases hi : i = c.slots.length
  · simp [hi]
  · rw [if_neg hi, List.getElem?_append]
    split
    · rfl
    · rename_i hl
      have hlt : c.slots.length < i := lt_of_le_of_ne (not_lt.1 hl) (Ne.symm hi)
      rw [List.getElem?_eq_none (not_lt.1 hl), List.getElem?_eq_none]
      exact Nat.sub_pos_of_lt hlt

@[simp] lemma entry?_file : entry? (c.file k) i = c.entry? i := by
  rw [ObjectCache.entry?, file, ObjectCache.entry?, List.getElem?_append]
  split
  · rfl
  · rename_i hl
    rw [List.getElem?_eq_none (not_lt.1 hl)]
    cases i - c.slots.length <;> rfl

@[simp] lemma handles_file : (c.file k).handles i = c.handles i := by
  rw [handles, file, handles, List.getElem?_append]
  split
  · rfl
  · rename_i hl
    rw [List.getElem?_eq_none (not_lt.1 hl)]
    cases i - c.slots.length <;> rfl

lemma filed?_file : (c.file k).filed? j = if j = k then some c.slots.length else c.filed? j := by
  by_cases h : j = k
  · simp [filed?, file, h]
  · simp [filed?, file, h, Table.lookup_put_of_ne h]

@[simp] lemma key?_set (e : Entity) : (c.set id e).key? i = c.key? i := by
  have h : (c.set id e).key? i = (c.kept e).2.key? i :=
    key?_update (f := fun s => { s with entry := some (c.kept e).1 }) fun _ => rfl
  rw [h, key?, slots_kept, key?]

@[simp] lemma handles_set (e : Entity) : (c.set id e).handles i = c.handles i := by
  have h : (c.set id e).handles i = (c.kept e).2.handles i :=
    (handles_update (f := fun s => { s with entry := some (c.kept e).1 }) (fun n => n)
      fun _ => rfl).trans (ite_self _)
  rw [h, handles, slots_kept, handles]

@[simp] lemma filed?_set (e : Entity) : (c.set id e).filed? k = c.filed? k := by
  show ((c.kept e).2.directory.filed).lookup k = _
  rw [directory_kept, filed?]

lemma getElem?_set (e : Entity) (i : SlotId) : (c.set id e).slots[i]? =
    c.slots[i]?.map fun s => if i = id then { s with entry := some (c.kept e).1 } else s := by
  have hs : (c.set id e).slots[i]? = (c.kept e).2.slots[i]?.map
      fun s => if i = id then { s with entry := some (c.kept e).1 } else s :=
    getElem?_update _ _ _
  rw [hs, slots_kept]

lemma entry?_set (h : id < c.slots.length) (e : Entity) :
    entry? (c.set id e) i = if i = id then some (c.kept e).1 else c.entry? i := by
  rw [ObjectCache.entry?, getElem?_set]
  by_cases hi : i = id
  · simp [hi, h]
  · simp [hi, ObjectCache.entry?]

lemma entry?_set_of_ne (h : i ≠ id) (e : Entity) : entry? (c.set id e) i = c.entry? i := by
  rw [ObjectCache.entry?, getElem?_set]
  simp [h, ObjectCache.entry?]

@[simp] lemma key?_evict : (c.evict id k).key? i = c.key? i :=
  key?_update (f := fun s => { s with entry := none, handles := 0 }) fun _ => rfl

lemma entry?_evict : entry? (c.evict id k) i = if i = id then none else c.entry? i := by
  have hs : (c.evict id k).slots[i]? = c.slots[i]?.map
      fun s => if i = id then { s with entry := none, handles := 0 } else s :=
    getElem?_update _ _ _
  rw [ObjectCache.entry?, hs]
  by_cases hi : i = id
  · cases h : c.slots[id]? <;> simp [hi, h]
  · simp [hi, ObjectCache.entry?]

lemma handles_evict : (c.evict id k).handles i = if i = id then 0 else c.handles i := by
  have h : (c.evict id k).handles i = if i = id ∧ i < c.slots.length then 0 else c.handles i :=
    handles_update (f := fun s => { s with entry := none, handles := 0 }) (fun _ => 0) fun _ => rfl
  rw [h]
  by_cases hi : i = id
  · subst hi
    by_cases hl : i < c.slots.length
    · simp [hl]
    · simp [hl, handles_of_key? (key?_eq_none.2 (not_lt.1 hl))]
  · simp [hi]

lemma filed?_evict : (c.evict id k).filed? j = if j = k then none else c.filed? j := by
  by_cases h : j = k
  · simp [filed?, evict, h]
  · simp [filed?, evict, h, Table.lookup_remove_of_ne h]

@[simp] lemma key?_clear : c.clear.key? i = c.key? i := rfl

@[simp] lemma entry?_clear : entry? c.clear i = c.entry? i := rfl

@[simp] lemma filed?_clear : c.clear.filed? k = none := rfl

@[simp] lemma handles_clear : c.clear.handles i = c.handles i := rfl

end Operations

section Lookup

lemma lookup_of_filed (h : c.filed? (CacheKey.ofText text) = some id) :
    c.lookup text = (id, c.countHit.hold id) := by
  simp [ObjectCache.lookup, h]

lemma lookup_of_unfiled (h : c.filed? (CacheKey.ofText text) = none) :
    c.lookup text =
      (c.slots.length, (c.file (CacheKey.ofText text)).hold c.slots.length) := by
  simp [ObjectCache.lookup, h]

lemma filed?_lookup (text : String) (j : CacheKey) : (c.lookup text).2.filed? j =
    if j = CacheKey.ofText text then some (c.lookup text).1 else c.filed? j := by
  cases h : c.filed? (CacheKey.ofText text) with
  | some id =>
    rw [lookup_of_filed h]
    show c.filed? j = _
    split
    · rename_i hj
      rw [hj, h]
    · rfl
  | none =>
    rw [lookup_of_unfiled h, filed?_hold, filed?_file]

lemma filed?_lookup_of_filed (h : c.filed? j = some id) (text : String) :
    (c.lookup text).2.filed? j = some id := by
  rw [filed?_lookup]
  split
  · rename_i hj
    rw [lookup_of_filed (hj ▸ h)]
  · exact h

lemma key?_lookup_of_key? (h : c.key? id = some k) (text : String) :
    (c.lookup text).2.key? id = some k := by
  cases hf : c.filed? (CacheKey.ofText text) with
  | some i =>
    rw [lookup_of_filed hf, key?_hold]
    exact h
  | none =>
    rw [lookup_of_unfiled hf, key?_hold, key?_file, if_neg (lt_of_key? h).ne, h]

@[simp] lemma entry?_lookup (text : String) : entry? (c.lookup text).2 id = c.entry? id := by
  cases hf : c.filed? (CacheKey.ofText text) with
  | some i =>
    rw [lookup_of_filed hf, entry?_hold]
    rfl
  | none => rw [lookup_of_unfiled hf, entry?_hold, entry?_file]

end Lookup

lemma drop_of_key? (h : c.key? id = none) : c.drop id = c := by
  rw [key?, Option.map_eq_none_iff] at h
  rw [drop, update, List.modify_eq_self (List.getElem?_eq_none_iff.1 h)]

lemma release_cases (id : SlotId) :
    (∃ k, c.key? id = some k ∧ c.filed? k = some id ∧ c.handles id ≤ 1 ∧
        c.release id = (true, c.evict id k)) ∨
      (∀ k, c.key? id = some k → c.filed? k = some id → 1 < c.handles id) ∧
        c.release id = (false, c.drop id) := by
  rw [release]
  cases hs : c.slots[id]? with
  | none =>
    have hk : c.key? id = none := by simp [key?, hs]
    refine .inr ⟨fun k h => ?_, ?_⟩
    · rw [hk] at h
      cases h
    · rw [drop_of_key? hk]
  | some s =>
    have hk : c.key? id = some s.key := by simp [key?, hs]
    have hh : c.handles id = s.handles := by simp [handles, hs]
    have hl : c.lastOf id s = true ↔ c.filed? s.key = some id ∧ c.handles id ≤ 1 := by
      simp [lastOf, hh]
    dsimp only
    split
    · rename_i h
      obtain ⟨hf, hle⟩ := hl.1 h
      exact .inl ⟨s.key, hk, hf, hle, rfl⟩
    · rename_i h
      refine .inr ⟨fun k hk' hf => ?_, rfl⟩
      obtain rfl : s.key = k := Option.some.inj (hk.symm.trans hk')
      exact not_le.1 fun hle => h (hl.2 ⟨hf, hle⟩)

@[simp] lemma key?_release (i : SlotId) : (c.release i).2.key? id = c.key? id := by
  rcases release_cases (c := c) i with ⟨k, -, -, -, he⟩ | ⟨-, he⟩
  · rw [he, key?_evict]
  · rw [he, key?_drop]

end ObjectCache

end ColourPipeline
