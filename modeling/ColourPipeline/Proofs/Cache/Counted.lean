import ColourPipeline.Proofs.Cache.Slots

/-! Slots are filed under their own keys, and have as many handles as there are. -/

namespace ColourPipeline

namespace ObjectCache

variable {c : ObjectCache} {held : List SlotId} {id i : SlotId} {k : CacheKey}

def Stored (c : ObjectCache) (id : SlotId) : Prop := ∃ k, c.key? id = some k ∧ c.filed? k = some id

/-- Whatever is filed is filed under its own key, and a slot has as many handles as there are
entries for it in a list. -/
structure Counted (c : ObjectCache) (held : List SlotId) : Prop where
  keys : (c.directory.filed.map (·.1)).Nodup
  filed : ∀ k id, c.filed? k = some id → c.key? id = some k
  handles : ∀ id, c.handles id = held.count id

lemma counted_empty : Counted {} [] where
  keys := List.nodup_nil
  filed _ _ h := by cases h
  handles _ := rfl

lemma Counted.perm {held' : List SlotId} (h : c.Counted held) (hp : held.Perm held') :
    c.Counted held' where
  keys := h.keys
  filed := h.filed
  handles id := (h.handles id).trans (hp.count_eq id)

lemma Counted.lt (h : c.Counted held) (hid : id ∈ held) : id < c.slots.length := by
  by_contra hn
  have hz := handles_of_key? (key?_eq_none.2 (not_lt.1 hn))
  rw [h.handles] at hz
  exact (List.count_pos_iff.2 hid).ne' hz

lemma Counted.hold (h : c.Counted held) (hid : id < c.slots.length) :
    (c.hold id).Counted (id :: held) where
  keys := h.keys
  filed k i hk := by
    rw [key?_hold]
    exact h.filed k i hk
  handles i := by rw [handles_hold hid, h.handles, List.count_cons]

lemma Counted.drop (h : c.Counted (id :: held)) : (c.drop id).Counted held where
  keys := h.keys
  filed k i hk := by
    rw [key?_drop]
    exact h.filed k i hk
  handles i := by rw [handles_drop, h.handles, List.count_cons, Nat.add_sub_cancel]

lemma Counted.set (h : c.Counted held) (id : SlotId) (e : Entity) :
    (c.set id e).Counted held where
  keys := by
    show ((c.kept e).2.directory.filed.map (·.1)).Nodup
    rw [directory_kept]
    exact h.keys
  filed k i hk := by
    rw [key?_set]
    exact h.filed k i (by rwa [filed?_set] at hk)
  handles i := (handles_set e).trans (h.handles i)

lemma Counted.clear (h : c.Counted held) : c.clear.Counted held where
  keys := List.nodup_nil
  filed _ _ hk := by cases hk
  handles := h.handles

lemma Counted.evict (h : c.Counted (id :: held)) (hh : c.handles id ≤ 1) :
    (c.evict id k).Counted held where
  keys := h.keys.sublist (List.filter_sublist.map _)
  filed j i hj := by
    rw [key?_evict]
    rw [filed?_evict] at hj
    split at hj
    · cases hj
    · exact h.filed j i hj
  handles i := by
    have hc := h.handles i
    rw [List.count_cons] at hc
    rw [handles_evict]
    split
    · rename_i hi
      subst hi
      rw [beq_self_eq_true, if_pos rfl] at hc
      omega
    · rename_i hi
      rw [hc, if_neg (by simpa using Ne.symm hi), Nat.add_zero]

lemma Counted.release (h : c.Counted (id :: held)) : (c.release id).2.Counted held := by
  rcases release_cases (c := c) id with ⟨k, -, -, hh, he⟩ | ⟨-, he⟩
  · rw [he]
    exact h.evict hh
  · rw [he]
    exact h.drop

lemma Counted.file (h : c.Counted held) (k : CacheKey) : (c.file k).Counted held where
  keys := Table.nodup_keys_put h.keys k _
  filed j i hj := by
    rw [filed?_file] at hj
    rw [key?_file]
    split at hj
    · rename_i hjk
      rw [if_pos (Option.some.inj hj).symm, hjk]
    · have hi := h.filed j i hj
      rw [if_neg (lt_of_key? hi).ne, hi]
  handles i := handles_file.trans (h.handles i)

lemma Counted.lookup (h : c.Counted held) (text : String) :
    (c.lookup text).2.Counted ((c.lookup text).1 :: held) := by
  cases hf : c.filed? (CacheKey.ofText text) with
  | some id =>
    rw [lookup_of_filed hf]
    have hc : c.countHit.Counted held := ⟨h.keys, h.filed, h.handles⟩
    exact hc.hold (lt_of_key? (h.filed _ _ hf))
  | none =>
    rw [lookup_of_unfiled hf]
    refine (h.file _).hold ?_
    simp [ObjectCache.file]

lemma Counted.release_iff (h : c.Counted held) (hid : id ∈ held) :
    (c.release id).1 = true ↔ c.Stored id ∧ held.count id = 1 := by
  have hpos := List.count_pos_iff.2 hid
  have hh := h.handles id
  rcases release_cases (c := c) id with ⟨k, hk, hf, hle, he⟩ | ⟨hn, he⟩
  · rw [he]
    exact iff_of_true rfl ⟨⟨k, hk, hf⟩, by omega⟩
  · rw [he]
    refine iff_of_false Bool.false_ne_true ?_
    rintro ⟨⟨k, hk, hf⟩, hone⟩
    have := hn k hk hf
    omega

lemma Counted.stored_release (h : c.Counted (id :: held)) (hi : i ∈ held) (hs : c.Stored i) :
    (c.release id).2.Stored i := by
  obtain ⟨j, hj, hf⟩ := hs
  refine ⟨j, by rw [key?_release, hj], ?_⟩
  rcases release_cases (c := c) id with ⟨k, -, hk, hle, he⟩ | ⟨-, he⟩
  · rw [he, filed?_evict, if_neg, hf]
    rintro rfl
    obtain rfl : i = id := Option.some.inj (hf.symm.trans hk)
    have hpos := List.count_pos_iff.2 hi
    rw [h.handles, List.count_cons_self] at hle
    omega
  · rw [he, filed?_drop, hf]

lemma Counted.stored_of_release (h : c.Counted (id :: held)) (hs : (c.release id).2.Stored i) :
    c.Stored i ∧ (i = id → i ∈ held) := by
  obtain ⟨j, hj, hf⟩ := hs
  rw [key?_release] at hj
  rcases release_cases (c := c) id with ⟨k, hk, -, -, he⟩ | ⟨hn, he⟩
  · rw [he, filed?_evict] at hf
    split at hf
    · cases hf
    · rename_i hjk
      refine ⟨⟨j, hj, hf⟩, ?_⟩
      rintro rfl
      exact absurd (Option.some.inj (hj.symm.trans hk)) hjk
  · rw [he, filed?_drop] at hf
    refine ⟨⟨j, hj, hf⟩, ?_⟩
    rintro rfl
    have hlt := hn j hj hf
    rw [h.handles, List.count_cons_self] at hlt
    exact List.count_pos_iff.1 (Nat.lt_of_succ_lt_succ hlt)

lemma Counted.stored (h : c.Counted held) (hf : c.filed? k = some id) : c.Stored id :=
  ⟨k, h.filed k id hf, hf⟩

lemma Stored.lookup (h : c.Stored i) (text : String) : (c.lookup text).2.Stored i := by
  obtain ⟨k, hk, hf⟩ := h
  exact ⟨k, key?_lookup_of_key? hk text, filed?_lookup_of_filed hf text⟩

lemma Counted.stored_lookup (h : c.Counted held) (text : String) :
    (c.lookup text).2.Stored (c.lookup text).1 :=
  (h.lookup text).stored (k := CacheKey.ofText text) (by rw [filed?_lookup, if_pos rfl])

lemma Counted.stored_of_lookup (h : c.Counted held) {text : String}
    (hs : (c.lookup text).2.Stored i) : i = (c.lookup text).1 ∨ c.Stored i := by
  obtain ⟨k, -, hf⟩ := hs
  rw [filed?_lookup] at hf
  split at hf
  · exact .inl (Option.some.inj hf).symm
  · exact .inr (h.stored hf)

structure Loses (c : ObjectCache) (id : SlotId) (c' : ObjectCache) : Prop where
  entry : entry? c' id = none
  others : ∀ i, i ≠ id → entry? c' i = c.entry? i
  filed : ∀ k, c'.filed? k = if c.key? id = some k then none else c.filed? k

structure Stays (c c' : ObjectCache) : Prop where
  directory : c'.directory = c.directory
  keys : ∀ i, c'.key? i = c.key? i
  entries : ∀ i, entry? c' i = c.entry? i

lemma loses_release (h : (c.release id).1 = true) : c.Loses id (c.release id).2 := by
  rcases release_cases (c := c) id with ⟨k, hk, -, -, he⟩ | ⟨-, he⟩
  · rw [he]
    refine ⟨?_, fun i hi => ?_, fun j => ?_⟩
    · rw [entry?_evict, if_pos rfl]
    · rw [entry?_evict, if_neg hi]
    · rw [filed?_evict, hk]
      exact if_congr (by rw [Option.some.injEq, eq_comm]) rfl rfl
  · rw [he] at h
    cases h

lemma stays_release (h : (c.release id).1 = false) : c.Stays (c.release id).2 := by
  rcases release_cases (c := c) id with ⟨k, -, -, -, he⟩ | ⟨-, he⟩
  · rw [he] at h
    cases h
  · rw [he]
    exact ⟨rfl, fun _ => key?_drop, fun _ => entry?_drop⟩

section Sizes

lemma lookups_lookup (c : ObjectCache) (text : String) :
    (c.lookup text).2.directory.hits + (c.lookup text).2.directory.misses =
      c.directory.hits + c.directory.misses + 1 := by
  cases hf : c.filed? (CacheKey.ofText text) with
  | some id =>
    rw [lookup_of_filed hf]
    exact Nat.add_right_comm _ _ _
  | none =>
    rw [lookup_of_unfiled hf]
    exact (Nat.add_assoc _ _ _).symm

lemma size_lookup (c : ObjectCache) (text : String) :
    (c.lookup text).2.size + c.directory.misses = c.size + (c.lookup text).2.directory.misses := by
  cases hf : c.filed? (CacheKey.ofText text) with
  | some id =>
    rw [lookup_of_filed hf]
    rfl
  | none =>
    obtain ⟨rest, hp, ht⟩ :=
      Table.exists_perm_put (CacheKey.ofText text) c.slots.length c.directory.filed
    have hl : c.directory.filed.lookup (CacheKey.ofText text) = none := hf
    rw [hl] at ht
    have hs : ((c.file (CacheKey.ofText text)).hold c.slots.length).size = rest.length + 1 :=
      hp.length_eq
    have hc : c.size = rest.length := ht.length_eq
    rw [lookup_of_unfiled hf, hs, hc]
    exact Nat.add_right_comm _ _ _

lemma Counted.size_evict (h : c.Counted held) (hf : c.filed? k = some id) :
    (c.evict id k).size + 1 = c.size :=
  (Table.perm_remove h.keys hf).length_eq.symm

end Sizes

end ObjectCache

end ColourPipeline
