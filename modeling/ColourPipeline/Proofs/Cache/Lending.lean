import ColourPipeline.Proofs.Cache.Counted

/-! A cache over whatever callers do with the handles they have. -/

namespace ColourPipeline

inductive Dealing where
  | lookup (text : String)
  | copy (id : SlotId)
  | drop (id : SlotId)
  | set (id : SlotId) (e : Entity)
  | release (id : SlotId)
  | clear

def Dealing.isLookup : Dealing → Bool
  | .lookup _ => true
  | _ => false

structure Lending where
  cache : ObjectCache := {}
  callers : List SlotId := []

namespace Lending

variable {l : Lending} {id : SlotId} {k : CacheKey} {d : Dealing}

def step (l : Lending) : Dealing → Lending
  | .lookup text => ⟨(l.cache.lookup text).2, (l.cache.lookup text).1 :: l.callers⟩
  | .copy id => if id ∈ l.callers then ⟨l.cache.hold id, id :: l.callers⟩ else l
  | .drop id => if id ∈ l.callers then ⟨l.cache.drop id, l.callers.erase id⟩ else l
  | .set id e => if id ∈ l.callers then { l with cache := l.cache.set id e } else l
  | .release id =>
    if id ∈ l.callers then ⟨(l.cache.release id).2, l.callers.erase id⟩ else l
  | .clear => { l with cache := l.cache.clear }

def after (l : Lending) (ds : List Dealing) : Lending := ds.foldl step l

def run (ds : List Dealing) : Lending := after {} ds

def found (ds : List Dealing) (text : String) : SlotId := ((run ds).cache.lookup text).1

def evicts? (l : Lending) : Dealing → Option SlotId
  | .release id => if id ∈ l.callers ∧ (l.cache.release id).1 = true then some id else none
  | _ => none

def evicted : Lending → List Dealing → List SlotId
  | _, [] => []
  | l, d :: ds => (l.evicts? d).toList ++ (l.step d).evicted ds

lemma run_append (ds es : List Dealing) : run (ds ++ es) = (run ds).after es := List.foldl_append

lemma after_cons (ds : List Dealing) : l.after (d :: ds) = (l.step d).after ds := rfl

section Counted

lemma counted_step_append {others : List SlotId} (h : l.cache.Counted (l.callers ++ others))
    (d : Dealing) : (l.step d).cache.Counted ((l.step d).callers ++ others) := by
  cases d with
  | lookup text => exact h.lookup text
  | copy id =>
    rw [step]
    split
    · rename_i hid
      exact h.hold (h.lt (List.mem_append_left _ hid))
    · exact h
  | drop id =>
    rw [step]
    split
    · rename_i hid
      exact (h.perm ((List.perm_cons_erase hid).append_right others)).drop
    · exact h
  | set id e =>
    rw [step]
    split
    · exact h.set id e
    · exact h
  | release id =>
    rw [step]
    split
    · rename_i hid
      exact (h.perm ((List.perm_cons_erase hid).append_right others)).release
    · exact h
  | clear => exact h.clear

lemma counted_step (h : l.cache.Counted l.callers) (d : Dealing) :
    (l.step d).cache.Counted (l.step d).callers := by
  have hd := @counted_step_append l [] (by rwa [List.append_nil]) d
  rwa [List.append_nil] at hd

lemma counted_run (ds : List Dealing) : (run ds).cache.Counted (run ds).callers := by
  induction ds using List.reverseRecOn with
  | nil => exact ObjectCache.counted_empty
  | append_singleton ds d ih =>
    rw [run_append]
    exact counted_step ih d

end Counted

section Stays

lemma evicts?_release (hid : id ∈ l.callers) (hr : (l.cache.release id).1 = true) :
    l.evicts? (.release id) = some id := if_pos ⟨hid, hr⟩

lemma key?_step (h : l.cache.key? id = some k) (d : Dealing) :
    (l.step d).cache.key? id = some k := by
  cases d with
  | lookup text => exact ObjectCache.key?_lookup_of_key? h text
  | copy i => rw [step]; split <;> simp [h]
  | drop i => rw [step]; split <;> simp [h]
  | set i e => rw [step]; split <;> simp [h]
  | release i => rw [step]; split <;> simp [h]
  | clear => exact h

lemma key?_after (h : l.cache.key? id = some k) (ds : List Dealing) :
    (l.after ds).cache.key? id = some k := by
  induction ds generalizing l with
  | nil => exact h
  | cons d ds ih => exact ih (key?_step h d)

lemma filed?_step (h : l.cache.filed? k = some id) (hd : d ≠ .clear)
    (he : l.evicts? d ≠ some id) : (l.step d).cache.filed? k = some id := by
  cases d with
  | lookup text => exact ObjectCache.filed?_lookup_of_filed h text
  | copy i => rw [step]; split <;> simp [h]
  | drop i => rw [step]; split <;> simp [h]
  | set i e => rw [step]; split <;> simp [h]
  | release i =>
    rw [step]
    split
    · rename_i hi
      rcases ObjectCache.release_cases (c := l.cache) i with ⟨j, hj, hf, -, hr⟩ | ⟨-, hr⟩
      · -- What goes is filed under another key, for it is another slot.
        rw [hr, ObjectCache.filed?_evict, if_neg, h]
        rintro rfl
        refine he ?_
        rw [evicts?_release hi (by rw [hr]), ← hf, h]
      · rw [hr, ObjectCache.filed?_drop, h]
    · exact h
  | clear => exact absurd rfl hd

lemma filed?_after (h : l.cache.filed? k = some id) {ds : List Dealing} (hd : .clear ∉ ds)
    (he : id ∉ l.evicted ds) :
    (l.after ds).cache.filed? k = some id := by
  induction ds generalizing l with
  | nil => exact h
  | cons d ds ih =>
    rw [evicted, List.mem_append, Option.mem_toList, not_or] at he
    rw [List.mem_cons, not_or] at hd
    exact ih (filed?_step h (Ne.symm hd.1) he.1) hd.2 he.2

lemma stored_step {others : List SlotId} (hc : l.cache.Counted (l.callers ++ others))
    (hid : id ∈ others) (h : l.cache.Stored id) (hd : d ≠ .clear) :
    (l.step d).cache.Stored id := by
  obtain ⟨k, hk, hf⟩ := h
  refine ⟨k, key?_step hk d, filed?_step hf hd fun he => ?_⟩
  -- What a caller gives back does not go while somebody else has a handle on it.
  cases d with
  | release i =>
    rw [evicts?] at he
    split at he
    · rename_i hi
      obtain rfl : i = id := Option.some.inj he
      have hone := ((hc.release_iff (List.mem_append_left _ hi.1)).1 hi.2).2
      rw [List.count_append] at hone
      have hcallers := List.count_pos_iff.2 hi.1
      have hothers := List.count_pos_iff.2 hid
      omega
    · cases he
  | _ => cases he

end Stays

section Sizes

lemma lookups_step (l : Lending) (d : Dealing) :
    (l.step d).cache.directory.hits + (l.step d).cache.directory.misses =
      l.cache.directory.hits + l.cache.directory.misses + if d.isLookup then 1 else 0 := by
  cases d with
  | lookup text => exact ObjectCache.lookups_lookup l.cache text
  | copy id => rw [step]; split <;> rfl
  | drop id => rw [step]; split <;> rfl
  | set id e =>
    rw [step]
    split
    · show (l.cache.kept e).2.directory.hits + (l.cache.kept e).2.directory.misses = _
      rw [ObjectCache.directory_kept]
      rfl
    · rfl
  | release id =>
    rw [step]
    split
    · rcases ObjectCache.release_cases (c := l.cache) id with ⟨k, -, -, -, he⟩ | ⟨-, he⟩
      · rw [he]
        rfl
      · rw [he]
        rfl
    · rfl
  | clear => rfl

lemma lookups_run (ds : List Dealing) :
    (run ds).cache.directory.hits + (run ds).cache.directory.misses = ds.countP (·.isLookup) := by
  induction ds using List.reverseRecOn with
  | nil => rfl
  | append_singleton ds d ih =>
    rw [run_append, List.countP_append, ← ih, List.countP_singleton]
    exact lookups_step (run ds) d

lemma size_step (h : l.cache.Counted l.callers) (hd : d ≠ .clear) :
    (l.step d).cache.size + (l.evicts? d).toList.length + l.cache.directory.misses =
      l.cache.size + (l.step d).cache.directory.misses := by
  cases d with
  | lookup text => exact ObjectCache.size_lookup l.cache text
  | copy id => rw [step]; split <;> rfl
  | drop id => rw [step]; split <;> rfl
  | set id e =>
    rw [step]
    split
    · show (l.cache.kept e).2.directory.filed.length + 0 + l.cache.directory.misses =
        l.cache.size + (l.cache.kept e).2.directory.misses
      rw [ObjectCache.directory_kept]
      rfl
    · rfl
  | release id =>
    rw [step, evicts?]
    by_cases hid : id ∈ l.callers
    · rw [if_pos hid]
      rcases ObjectCache.release_cases (c := l.cache) id with ⟨k, -, hf, -, he⟩ | ⟨-, he⟩
      · rw [he, if_pos ⟨hid, rfl⟩, ← h.size_evict hf]
        rfl
      · rw [he, if_neg (by simp)]
        rfl
    · rw [if_neg hid, if_neg (by simp [hid])]
      rfl
  | clear => exact absurd rfl hd

lemma size_after (h : l.cache.Counted l.callers) {ds : List Dealing} (hd : .clear ∉ ds) :
    (l.after ds).cache.size + (l.evicted ds).length + l.cache.directory.misses =
      l.cache.size + (l.after ds).cache.directory.misses := by
  induction ds generalizing l with
  | nil => rfl
  | cons d ds ih =>
    rw [List.mem_cons, not_or] at hd
    have hs := size_step h (Ne.symm hd.1)
    have ht := ih (counted_step h d) hd.2
    rw [after_cons, evicted, List.length_append]
    omega

end Sizes

structure Orderly (ds : List Dealing) : Prop where
  filed : ∀ k id, (k, id) ∈ (run ds).cache.directory.filed → (run ds).cache.key? id = some k
  keys : ((run ds).cache.directory.filed.map (·.1)).Nodup
  same : ∀ before text between text' rest,
    ds = before ++ .lookup text :: (between ++ .lookup text' :: rest) → .clear ∉ between →
    found before text ∉ (run (before ++ [.lookup text])).evicted between →
    (found (before ++ .lookup text :: between) text' = found before text ↔ text' = text)
  evicts : ∀ id ∈ (run ds).callers, ((run ds).cache.release id).1 = true ↔
    (run ds).cache.Stored id ∧ (run ds).callers.count id = 1
  gone : ∀ id, ((run ds).cache.release id).1 = true →
    (run ds).cache.Loses id ((run ds).cache.release id).2
  left : ∀ id, ((run ds).cache.release id).1 = false →
    (run ds).cache.Stays ((run ds).cache.release id).2
  lookups : (run ds).cache.directory.hits + (run ds).cache.directory.misses =
    ds.countP (·.isLookup)
  size : ∀ before rest, ds = before ++ rest → (before = [] ∨ ∃ past, before = past ++ [.clear]) →
    .clear ∉ rest → (run ds).cache.size + ((run before).evicted rest).length +
      (run before).cache.directory.misses = (run ds).cache.directory.misses

lemma key?_found (ds : List Dealing) (text : String) :
    (run (ds ++ [.lookup text])).cache.key? (found ds text) = some (CacheKey.ofText text) := by
  refine (counted_run (ds ++ [.lookup text])).filed _ _ ?_
  rw [run_append]
  exact (ObjectCache.filed?_lookup text _).trans (if_pos rfl)

lemma run_lookup_append (before : List Dealing) (text : String) (ds : List Dealing) :
    run (before ++ .lookup text :: ds) = (run (before ++ [.lookup text])).after ds := by
  rw [List.append_cons, run_append]

lemma found_again {before between : List Dealing} {text : String} (hc : .clear ∉ between)
    (he : found before text ∉ (run (before ++ [.lookup text])).evicted between) :
    found (before ++ .lookup text :: between) text = found before text := by
  have hf : (run (before ++ [.lookup text])).cache.filed? (CacheKey.ofText text) =
      some (found before text) := by
    rw [run_append]
    exact (ObjectCache.filed?_lookup text _).trans (if_pos rfl)
  have hf := filed?_after hf hc he
  rw [← run_lookup_append] at hf
  rw [found, ObjectCache.lookup_of_filed hf]

lemma text_of_found {texts : Set String} (hk : Set.InjOn CacheKey.ofText texts)
    {before between : List Dealing} {text text' : String} (ht : text ∈ texts)
    (ht' : text' ∈ texts)
    (h : found (before ++ .lookup text :: between) text' = found before text) : text' = text := by
  have hkey := key?_found (before ++ .lookup text :: between) text'
  rw [h, run_append] at hkey
  have hkey' := key?_after (key?_found before text) (between ++ [.lookup text'])
  rw [← run_lookup_append, ← List.cons_append, ← List.append_assoc, run_append, hkey] at hkey'
  exact hk ht' ht (Option.some.inj hkey')

lemma size_run {before rest : List Dealing}
    (hb : before = [] ∨ ∃ past, before = past ++ [.clear]) (hr : .clear ∉ rest) :
    (run (before ++ rest)).cache.size + ((run before).evicted rest).length +
      (run before).cache.directory.misses = (run (before ++ rest)).cache.directory.misses := by
  have hz : (run before).cache.size = 0 := by
    rcases hb with rfl | ⟨past, rfl⟩
    · rfl
    · rw [run_append]
      rfl
  rw [run_append, size_after (counted_run before) hr, hz, Nat.zero_add]

/-- Over whatever callers do: a text keeps its slot, which goes with the last handle on it that is
given back, and what is counted is what there was. -/
theorem orderly_run (ds : List Dealing)
    (hk : Set.InjOn (fun text => Digest.sha256 (Bytes.ofText text))
      {text | .lookup text ∈ ds ∧ CacheKey.inlineLimit ≤ text.utf8ByteSize}) : Orderly ds where
  filed k id hm := (counted_run ds).filed k id (Table.lookup_of_mem (counted_run ds).keys hm)
  keys := (counted_run ds).keys
  same before text between text' rest hds hc he := by
    have hk : Set.InjOn CacheKey.ofText {text | .lookup text ∈ ds} := CacheKey.ofText_injOn hk
    constructor
    · exact text_of_found hk (by simp [hds]) (by simp [hds])
    · rintro rfl
      exact found_again hc he
  evicts id hid := (counted_run ds).release_iff hid
  gone id h := ObjectCache.loses_release h
  left id h := ObjectCache.stays_release h
  lookups := lookups_run ds
  size before rest hds hb hr := by
    rw [hds]
    exact size_run hb hr

def atLimit (n : ℕ) : String := String.ofList (List.replicate (30 + n) 'a')

theorem orderly_run_limit :
    found [.lookup (atLimit 0)] (atLimit 1) ≠ found [] (atLimit 0) ∧
      ((run [.lookup "k", .lookup "k", .release 0]).cache.release 0).1 = true := by
  have hshort : ¬ CacheKey.inlineLimit ≤ (atLimit 0).utf8ByteSize := by decide
  have hk : ¬ CacheKey.inlineLimit ≤ "k".utf8ByteSize := by decide
  constructor
  · have h := orderly_run [.lookup (atLimit 0), .lookup (atLimit 1)] ?_
    · exact (not_congr (h.same [] (atLimit 0) [] (atLimit 1) [] rfl (by simp)
        (by simp [evicted]))).2 (by decide)
    · apply Set.Subsingleton.injOn
      rintro x ⟨hx, hxl⟩ y ⟨hy, hyl⟩
      simp only [List.mem_cons, Dealing.lookup.injEq, List.not_mem_nil, or_false] at hx hy
      rcases hx with rfl | rfl
      · exact absurd hxl hshort
      · rcases hy with rfl | rfl
        · exact absurd hyl hshort
        · rfl
  · have h := orderly_run [.lookup "k", .lookup "k", .release 0] ?_
    · exact (h.evicts 0 (by decide)).2 ⟨⟨.inline "k", by decide, by decide⟩, by decide⟩
    · apply Set.Subsingleton.injOn
      rintro x ⟨hx, hxl⟩
      simp only [List.mem_cons, Dealing.lookup.injEq, List.not_mem_nil, reduceCtorEq,
        or_self, or_false] at hx
      exact absurd hxl (hx ▸ hk)

end Lending

end ColourPipeline
