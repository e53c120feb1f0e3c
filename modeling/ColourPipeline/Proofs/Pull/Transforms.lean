import ColourPipeline.Proofs.Pull.Runs

/-! Transforms keep counts and slots of the stages there are, and of no others. -/

namespace ColourPipeline

namespace TransformState

variable {t : TransformState} {id i : StageId} {workspace w : ℤ} {pixels : ℕ} {slot : SlotId}

def Mentions (t : TransformState) (id : StageId) : Prop :=
  id ∈ t.counts.map (·.1.1) ∨ id ∈ t.drawn.map (·.1)

def drawing (id : StageId) (slot : SlotId) (t : TransformState) : TransformState :=
  { t with drawn := t.drawn.put id slot }

def without (ids : List StageId) (t : TransformState) : TransformState where
  counts := t.counts.filter (·.1.1 ∉ ids)
  drawn := t.drawn.filter (·.1 ∉ ids)

lemma forget_eq (id : StageId) (t : TransformState) : t.forget id = t.without [id] := by
  simp [forget, without, Table.remove]

lemma without_nil (t : TransformState) : t.without [] = t := by simp [without]

lemma without_without (ids ids' : List StageId) (t : TransformState) :
    (t.without ids).without ids' = t.without (ids ++ ids') := by
  simp [without, List.filter_filter, not_or, Bool.and_comm]

lemma count_eq (t : TransformState) (id : StageId) (w : ℤ) :
    t.count id w = (@List.lookup _ _ instBEqOfDecidableEq (id, w) t.counts).getD {} := by
  rw [count, lawful_beq_subsingleton instBEqProd instBEqOfDecidableEq]

lemma count_record : (t.record id workspace pixels).count i w =
    if i = id ∧ w = workspace then (t.count id workspace).add pixels else t.count i w := by
  by_cases h : (i, w) = (id, workspace)
  · obtain ⟨rfl, rfl⟩ := Prod.mk.inj h
    rw [if_pos ⟨rfl, rfl⟩, count_eq, record]
    dsimp only
    rw [Table.lookup_put_self]
    rfl
  · rw [if_neg fun hc => h (Prod.ext hc.1 hc.2), count_eq, record]
    dsimp only
    rw [Table.lookup_put_of_ne h, ← count_eq]

lemma count_without {ids : List StageId} (h : i ∉ ids) :
    (t.without ids).count i w = t.count i w := by
  have hl := Table.lookup_filter (fun k : StageId × ℤ => decide (k.1 ∉ ids)) (i, w) t.counts
  rw [if_pos (by simpa using h)] at hl
  rw [count_eq, without]
  dsimp only
  rw [hl, ← count_eq]

lemma lookup_without {ids : List StageId} (h : i ∉ ids) :
    (t.without ids).drawn.lookup i = t.drawn.lookup i := by
  have hl := Table.lookup_filter (fun j : StageId => decide (j ∉ ids)) i t.drawn
  rwa [if_pos (by simpa using h)] at hl

lemma lookup_of_not_mentions (h : ¬ t.Mentions i) : t.drawn.lookup i = none :=
  List.lookup_eq_none_iff.2 fun e he =>
    bne_iff_ne.2 fun hk => h (.inr (List.mem_map.2 ⟨e, he, hk.symm⟩))

lemma count_of_not_mentions (h : ¬ t.Mentions i) : t.count i w = {} := by
  rw [count, List.lookup_eq_none_iff.2]
  · rfl
  · intro e he
    refine bne_iff_ne.2 fun hk => h (.inl ?_)
    exact List.mem_map.2 ⟨e, he, congrArg Prod.fst hk.symm⟩

lemma mentions_record (h : (t.record id workspace pixels).Mentions i) : i = id ∨ t.Mentions i := by
  rcases h with h | h
  · obtain ⟨e, he, rfl⟩ := List.mem_map.1 h
    rcases Table.mem_keys_put.1 (List.mem_map_of_mem (f := (·.1)) he) with hk | hk
    · exact .inl (congrArg Prod.fst hk)
    · refine .inr (.inl ?_)
      obtain ⟨d, hd, hde⟩ := List.mem_map.1 hk
      exact List.mem_map.2 ⟨d, hd, congrArg Prod.fst hde⟩
  · exact .inr (.inr h)

lemma mentions_drawing (h : (t.drawing id slot).Mentions i) : i = id ∨ t.Mentions i := by
  rcases h with h | h
  · exact .inr (.inl h)
  · exact (Table.mem_keys_put.1 h).imp_right .inr

lemma mentions_without {ids : List StageId} (h : (t.without ids).Mentions i) :
    t.Mentions i ∧ i ∉ ids := by
  rcases h with h | h
  · obtain ⟨e, he, rfl⟩ := List.mem_map.1 h
    obtain ⟨he, hi⟩ := List.mem_filter.1 he
    exact ⟨.inl (List.mem_map_of_mem he), of_decide_eq_true hi⟩
  · obtain ⟨e, he, rfl⟩ := List.mem_map.1 h
    obtain ⟨he, hi⟩ := List.mem_filter.1 he
    exact ⟨.inr (List.mem_map_of_mem he), of_decide_eq_true hi⟩

end TransformState

namespace Pipeline

variable {p : Pipeline} {q : ProviderId} {s : Stage}

lemma transform_setTransform (p : Pipeline) (id : ProviderId) (t : TransformState) :
    (p.setTransform id t).transform q = if q = id then t else p.transform q := by
  by_cases h : q = id
  · subst h
    simp [transform, setTransform]
  · rw [if_neg h, transform, setTransform]
    dsimp only
    rw [Table.lookup_put_of_ne h, transform]

lemma transform_drawFrom (slot : SlotId) : (p.drawFrom s slot).transform q =
    if q = s.provider.id then (p.transform s.provider.id).drawing s.id slot
    else p.transform q := by
  rw [← transform_setTransform p]
  unfold drawFrom
  dsimp only
  split
  · rfl
  · split <;> rfl

lemma transform_drawGain : (p.drawGain s).2.transform q =
    if q = s.provider.id then
      (p.transform s.provider.id).drawing s.id (p.cache.lookup s.gainKey).1
    else p.transform q := by
  have h := transform_drawFrom (p := { p with cache := (p.cache.lookup s.gainKey).2 }) (q := q)
    (s := s) (p.cache.lookup s.gainKey).1
  rw [drawGain]
  dsimp only
  split <;> exact h

lemma transform_applied (x : Pipeline × Ticket) : (Pull.applied s x).1.transform q =
    if q = s.provider.id then
      ((x.1.transform s.provider.id).drawing s.id (x.1.cache.lookup s.gainKey).1).record s.id
        x.2.workspace (Pull.applied s x).2.array.size
    else x.1.transform q := by
  show ((x.1.drawGain s).2.countBatch s _ _).transform q = _
  rw [countBatch, transform_setTransform, transform_drawGain, if_pos rfl, transform_drawGain]
  split <;> rfl

def clients (q : ProviderId) (ss : List Stage) : List StageId :=
  (ss.filter fun s => s.filter.role = .transform ∧ s.provider.id = q).map (·.id)

lemma transform_dropSlot (p : Pipeline) (slot : Option SlotId) :
    (p.dropSlot slot).transform q = p.transform q := by
  cases slot <;> rfl

lemma transform_retire (p : Pipeline) (s : Stage) :
    (p.retire s).transform q = (p.transform q).without (clients q [s]) := by
  by_cases hrole : s.filter.role = .transform
  · rw [retire, hrole]
    dsimp only
    rw [transform_dropSlot, transform_setTransform]
    by_cases hq : s.provider.id = q
    · subst hq
      rw [if_pos rfl, TransformState.forget_eq]
      simp [clients, hrole]
    · rw [if_neg (Ne.symm hq)]
      simp [clients, hq, TransformState.without_nil]
  · have hc : clients q [s] = [] := by simp [clients, hrole]
    rw [hc, TransformState.without_nil, retire]
    split
    · rfl
    · exact absurd ‹_› hrole
    · rfl
    · rfl

lemma transform_settle (p : Pipeline) (r : List Stage × Network) :
    (p.settle r).transform q = (p.transform q).without (clients q r.1) := by
  have h (ss : List Stage) (p : Pipeline) :
      (ss.foldl retire p).transform q = (p.transform q).without (clients q ss) := by
    induction ss generalizing p with
    | nil => exact (TransformState.without_nil _).symm
    | cons s ss ih =>
      rw [List.foldl_cons, ih, transform_retire, TransformState.without_without]
      congr 1
      rw [clients, clients, clients, ← List.map_append, ← List.filter_append]
      rfl
  exact h r.1 _

end Pipeline

structure Current (rs : List Run) (p : Pipeline) : Prop where
  known : ∀ r ∈ rs, r.stage.id < p.network.created
  mentions : ∀ q id, (p.transform q).Mentions id → ∃ s, p.network.find? id = some s ∧
    s.filter.role = .transform ∧ s.provider.id = q

namespace Current

variable {rs : List Run} {p : Pipeline} {s : Stage} {id : StageId} {q : ProviderId}

lemma empty : Current [] {} where
  known _ h := by cases h
  mentions q id h := by rcases h with h | h <;> cases h

lemma notMem_clients {r : List Stage × Network} (hr : p.network.Parts r)
    (hc : p.network.Consistent) (hs : r.2.find? id = some s) : id ∉ Pipeline.clients q r.1 := by
  intro h
  obtain ⟨t, ht, rfl⟩ := List.mem_map.1 h
  exact (hr.of_freed hc.nodup (List.mem_of_mem_filter ht)).2
    (Network.find?_isSome.1 (Option.isSome_of_eq_some hs))

lemma settle (h : Current rs p) (hc : p.network.Consistent) {r : List Stage × Network}
    (hr : p.network.Parts r) : Current rs (p.settle r) where
  known u hu := by
    rw [Pipeline.settle_network, hr.created]
    exact h.known u hu
  mentions q id hid := by
    rw [Pipeline.transform_settle] at hid
    obtain ⟨hid, hn⟩ := TransformState.mentions_without hid
    obtain ⟨s, hs, hrole, hq⟩ := h.mentions q id hid
    rw [Pipeline.settle_network]
    -- A stage that has gone is among those that are forgotten.
    rcases hr.freed_or_left hc.nodup hs with ⟨t, ht, he⟩ | ⟨t, ht, he⟩
    · refine absurd (List.mem_map.2 ⟨t, List.mem_filter.2 ⟨ht, ?_⟩, ?_⟩) hn
      · simpa [Network.identity_filter he, Network.identity_provider he] using ⟨hrole, hq⟩
      · rw [Network.identity_id he, Network.id_of_find? hs]
    · exact ⟨t, ht, by rw [Network.identity_filter he, hrole],
        by rw [Network.identity_provider he, hq]⟩

lemma create (h : Current rs p) (q : Provider) (f : Filter) :
    Current rs { p with network := (p.network.create q f).2 } where
  known u hu := Nat.lt_succ_of_lt (h.known u hu)
  mentions q' id hid := by
    obtain ⟨s, hs, hrole⟩ := h.mentions q' id hid
    exact ⟨s, by rw [Network.find?_create, hs, Option.some_or], hrole⟩

lemma of_create (h : Current rs p) {q : Provider} {f : Filter}
    (hs : (p.network.create q f).2.find? id = some s) : p.network.find? id = some s ∨
      (∀ q, ¬ (p.transform q).Mentions id) ∧ ∀ r ∈ rs, r.stage.id ≠ id := by
  rw [Network.find?_create] at hs
  cases hf : p.network.find? id with
  | some t =>
    rw [hf, Option.some_or] at hs
    exact .inl hs
  | none =>
    rw [hf, Option.none_or] at hs
    have hid : p.network.created = id := by
      by_contra hid
      rw [if_neg hid] at hs
      cases hs
    refine .inr ⟨fun q hm => ?_, fun r hr => hid ▸ (h.known r hr).ne⟩
    obtain ⟨t, ht, -⟩ := h.mentions q id hm
    rw [hf] at ht
    cases ht

lemma idle (h : Current rs p) (hc : p.network.Consistent) {r : Run}
    (hr : p.network.find? r.stage.id = some r.stage) : Current (rs ++ [r]) p where
  known u hu := by
    rcases List.mem_append.1 hu with hu | hu
    · exact h.known u hu
    · obtain rfl := List.mem_singleton.1 hu
      exact hc.fresh _ (Network.find?_isSome.1 (Option.isSome_of_eq_some hr))
  mentions := h.mentions

lemma gain {t : Ticket} (h : Current rs p) (hc : p.network.Consistent)
    (hs : p.network.find? s.id = some s) (hrole : s.filter.role = .transform) :
    Current (rs ++ [Pull.gainRun s (p, t)]) (Pull.applied s (p, t)).1 := by
  have hn : (Pull.applied s (p, t)).1.network = p.network := Pipeline.drawGain_network s p
  refine ⟨?_, fun q id hid => ?_⟩
  · rw [hn]
    exact (h.idle hc (r := Pull.gainRun s (p, t)) hs).known
  · rw [hn]
    rw [Pipeline.transform_applied] at hid
    split at hid
    · rename_i hq
      rcases TransformState.mentions_record hid with rfl | hid
      · exact ⟨s, hs, hrole, hq.symm⟩
      · rcases TransformState.mentions_drawing hid with rfl | hid
        · exact ⟨s, hs, hrole, hq.symm⟩
        · exact h.mentions q id (hq ▸ hid)
    · exact h.mentions q id hid

lemma onCache (h : Current rs p) (f : ObjectCache → ObjectCache) : Current rs (p.onCache f) :=
  ⟨h.known, h.mentions⟩

lemma report (h : Current rs p) (e : Event) : Current rs (p.report e) := ⟨h.known, h.mentions⟩

end Current

end ColourPipeline
