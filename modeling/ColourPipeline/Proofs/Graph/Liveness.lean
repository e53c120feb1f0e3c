import ColourPipeline.Proofs.Graph.Connection

/-! A collection takes stages without handles that no others pull from, and all of these. -/

namespace ColourPipeline

open Relation

namespace Network

variable {net : Network}

structure Spares (net : Network) (ids : List StageId) (keep : StageId → Bool) : Prop where
  closed : ∀ p s, net.remote? p = some s → keep p.stage = true → keep s.stage = true
  idle : ∀ id s, net.find? id = some s → keep id = false → s.handles = 0
  behind : ∀ id, keep id = false → ∃ i ∈ ids, ReflTransGen (Pulls net.remote?) i id

lemma Spares.weaken {ids : List StageId} {keep : StageId → Bool} (h : net.Spares ids keep)
    (id : StageId) : net.Spares (id :: ids) keep where
  closed := h.closed
  idle := h.idle
  behind j hj := by
    obtain ⟨i, hi, hp⟩ := h.behind j hj
    exact ⟨i, List.mem_cons_of_mem id hi, hp⟩

lemma restrict_true : net.restrict (fun _ => true) = net := by
  simp [restrict]

lemma restrict_restrict (keep keep' : StageId → Bool) :
    (net.restrict keep).restrict keep' = net.restrict fun id => keep id && keep' id := by
  simp [restrict, List.filter_filter, Bool.and_comm]

lemma ne_of_remote? {id : StageId} (hh : net.isHeld id = false) {p s : Contact}
    (hs : net.remote? p = some s) : s.stage ≠ id := by
  rintro rfl
  have hmem : (p, s) ∈ net.remotes := by
    obtain ⟨l, l', hl, -⟩ := List.lookup_eq_some_iff.1 hs
    rw [hl]
    simp
  rw [isHeld] at hh
  rw [Bool.or_eq_false_iff, List.any_eq_false] at hh
  exact hh.2 _ hmem (beq_self_eq_true _)

lemma Consistent.remove (h : net.Consistent) {id : StageId} (hh : net.isHeld id = false) :
    (net.remove id).Consistent :=
  h.restrict fun _ _ hs _ => by simpa using ne_of_remote? hh hs

lemma spares_remove {id : StageId} {ids : List StageId} {keep : StageId → Bool}
    (hc : net.Consistent) (hh : net.isHeld id = false)
    (h : (net.remove id).Spares (net.suppliers id ++ ids) keep) :
    net.Spares (id :: ids) fun j => decide (j ≠ id) && keep j where
  closed p s hs hp := by
    obtain ⟨hpi, hpk⟩ : p.stage ≠ id ∧ keep p.stage = true := by simpa using hp
    have hr : (net.remove id).remote? p = some s := by
      rw [Network.remove, remote?_restrict, if_pos (by simpa using hpi), hs]
    have hsk := h.closed p s hr hpk
    simp [ne_of_remote? hh hs, hsk]
  idle j s hs hj := by
    by_cases hid : j = id
    · have hz := (Bool.or_eq_false_iff.1 hh).1
      rw [← hid, hs] at hz
      simpa using hz
    · have hk : keep j = false := by simpa [hid] using hj
      refine h.idle j s ?_ hk
      rw [Network.remove, find?_restrict, if_pos (by simpa using hid), hs]
  behind j hj := by
    have hmono : Pulls (net.remove id).remote? ≤ Pulls net.remote? := by
      rintro a b ⟨i, s, hs, rfl⟩
      rw [Network.remove, remote?_restrict] at hs
      split at hs
      · exact ⟨i, s, hs, rfl⟩
      · cases hs
    by_cases hid : j = id
    · exact ⟨id, List.mem_cons_self, hid ▸ .refl⟩
    · have hk : keep j = false := by simpa [hid] using hj
      obtain ⟨i, hi, hp⟩ := h.behind j hk
      have hp := ReflTransGen.mono hmono _ _ hp
      rcases List.mem_append.1 hi with hi | hi
      · exact ⟨id, List.mem_cons_self, .head ((mem_suppliers hc).1 hi) hp⟩
      · exact ⟨i, List.mem_cons_of_mem id hi, hp⟩

lemma spares_nil : net.Spares [] fun _ => true where
  closed _ _ _ _ := rfl
  idle _ _ _ h := by cases h
  behind _ h := by cases h

lemma collect_of_none {id : StageId} (hf : net.find? id = none) (ids : List StageId) :
    net.collect (id :: ids) = net.collect ids := by
  rw [collect]
  split
  · rfl
  · simp_all

lemma collect_of_held {id : StageId} {ids : List StageId}
    (hh : (net.isHeld id || ids.contains id) = true) :
    net.collect (id :: ids) = net.collect ids := by
  rw [collect]
  split
  · rfl
  · rw [if_pos hh]

lemma collect_of_free {id : StageId} {ids : List StageId} {s : Stage} (hf : net.find? id = some s)
    (hh : ¬ (net.isHeld id || ids.contains id) = true) :
    net.collect (id :: ids) = (s :: ((net.remove id).collect (net.suppliers id ++ ids)).1,
      ((net.remove id).collect (net.suppliers id ++ ids)).2) := by
  rw [collect]
  split
  · simp_all
  · rw [if_neg hh]
    simp_all

theorem collect_spec (hc : net.Consistent) (ids : List StageId) :
    ∃ keep, net.Spares ids keep ∧ (net.collect ids).2 = net.restrict keep := by
  -- The graph shrinks along the recursion, so what is kept is composed of one step and the rest.
  induction net, ids using collect.induct with
  | case1 net =>
    refine ⟨fun _ => true, spares_nil, ?_⟩
    rw [collect, restrict_true]
  | case2 net id ids hf ih =>
    obtain ⟨keep, hs, he⟩ := ih hc
    exact ⟨keep, hs.weaken id, by rw [collect_of_none hf, he]⟩
  | case3 net id ids s hf hh ih =>
    obtain ⟨keep, hs, he⟩ := ih hc
    exact ⟨keep, hs.weaken id, by rw [collect_of_held hh, he]⟩
  | case4 net id ids s hf hh freed rest _ ih =>
    have hn : net.isHeld id = false := by simp_all
    obtain ⟨keep, hs, he⟩ := ih (hc.remove hn)
    refine ⟨_, spares_remove hc hn hs, ?_⟩
    rw [collect_of_free hf hh]
    dsimp only
    rw [he, Network.remove, restrict_restrict]

end Network

end ColourPipeline
