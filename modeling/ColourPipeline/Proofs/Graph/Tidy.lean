import ColourPipeline.Proofs.Graph.Holders

namespace ColourPipeline

open Relation

namespace Network

variable {net : Network}

structure Tidy (net : Network) (pending : List StageId) : Prop where
  consistent : net.Consistent
  keys : (net.remotes.map (·.1)).Nodup
  held : ∀ id ∈ net.ids, net.Held id ∨ id ∈ pending

lemma tidy_empty : empty.Tidy [] := ⟨consistent_empty, List.nodup_nil, nofun⟩

section Collect

variable {id : StageId} {ids : List StageId}

lemma Tidy.skip (h : net.Tidy (id :: ids)) (hid : id ∈ net.ids → net.Held id ∨ id ∈ ids) :
    net.Tidy ids where
  consistent := h.consistent
  keys := h.keys
  held j hj := by
    rcases h.held j hj with hh | hm
    · exact .inl hh
    · rcases List.mem_cons.1 hm with rfl | hm
      · exact hid hj
      · exact .inr hm

lemma Tidy.remove (h : net.Tidy (id :: ids)) (hn : net.isHeld id = false) :
    (net.remove id).Tidy (net.suppliers id ++ ids) where
  consistent := h.consistent.remove hn
  keys := h.keys.sublist (List.filter_sublist.map _)
  held j hj := by
    have hfree : ¬ net.Held id := by
      rw [← isHeld_iff h.keys, hn]
      simp
    rw [Network.remove, ids_restrict, List.mem_filter, decide_eq_true_iff] at hj
    rcases h.held j hj.1 with (hh | ⟨a, i, s, hs, rfl⟩) | hm
    · refine .inl (.inl ?_)
      rwa [Network.remove, handles_restrict]
      intro k s hk hid
      rw [← handles_of_find? hk]
      obtain rfl : k = id := by simpa using hid
      exact Nat.eq_zero_of_not_pos fun hz => hfree (.inl hz)
    · by_cases ha : a = id
      · exact .inr (List.mem_append_left _ ((mem_suppliers h.consistent).2 ⟨i, s, ha ▸ hs, rfl⟩))
      · refine .inl (.inr ⟨a, i, s, ?_, rfl⟩)
        rwa [Network.remove, remote?_restrict, if_pos (by simpa using ha)]
    · exact .inr (List.mem_append_right _ ((List.mem_cons.1 hm).resolve_left hj.2))

theorem Tidy.collect (h : net.Tidy ids) : (net.collect ids).2.Tidy [] := by
  induction net, ids using collect.induct with
  | case1 net => rwa [Network.collect]
  | case2 net id ids hf ih =>
    rw [collect_of_none hf]
    refine ih (h.skip fun hid => absurd hid ?_)
    simp [← find?_isSome, hf]
  | case3 net id ids s hf hh ih =>
    rw [collect_of_held hh]
    refine ih (h.skip fun _ => ?_)
    rw [Bool.or_eq_true, isHeld_iff h.keys, List.contains_iff_mem] at hh
    exact hh
  | case4 net id ids s hf hh freed rest _ ih =>
    rw [collect_of_free hf hh]
    exact ih (h.remove (by simp_all))

end Collect

lemma Tidy.letGo {o : Option Contact} (h : net.Tidy (o.map (·.stage)).toList) :
    (net.letGo o).2.Tidy [] := by
  cases o with
  | none => exact h
  | some s => exact h.collect

lemma Tidy.of_held {net' : Network} {pending : List StageId} (h : net.Tidy [])
    (hc : net'.Consistent) (hk : (net'.remotes.map (·.1)).Nodup) (hi : net'.ids = net.ids)
    (hh : ∀ id, net.Held id → net'.Held id ∨ id ∈ pending) : net'.Tidy pending where
  consistent := hc
  keys := hk
  held id hid := hh id ((h.held id (hi ▸ hid)).resolve_right List.not_mem_nil)

lemma Tidy.update (h : net.Tidy []) {f : Stage → Stage}
    (hf : ∀ s, (f s).id = s.id ∧ (f s).filter = s.filter) (id : StageId)
    (hle : ∀ j, net.handles j ≤ (net.update f id).handles j) : (net.update f id).Tidy [] :=
  h.of_held (h.consistent.update hf id) h.keys (ids_update hf id) fun j hj =>
    .inl (hj.imp_left (hle j).trans_lt')

lemma Tidy.hold (h : net.Tidy []) (id : StageId) : (net.hold id).Tidy [] := by
  refine h.update (f := fun s => { s with handles := s.handles + 1 }) (fun _ => ⟨rfl, rfl⟩) id ?_
  intro j
  rw [handles_update (f := fun s => { s with handles := s.handles + 1 }) (fun _ => ⟨rfl, rfl⟩)
    (· + 1) fun _ => rfl]
  split <;> omega

lemma Tidy.holdAll (h : net.Tidy []) (ids : List StageId) :
    (ids.foldl Network.hold net).Tidy [] := by
  induction ids generalizing net with
  | nil => exact h
  | cons id ids ih => exact ih (h.hold id)

lemma Tidy.drop (h : net.Tidy []) (id : StageId) : (net.drop id).2.Tidy [] := by
  have hl : (net.lower id).Tidy [id] := by
    refine h.of_held (h.consistent.lower id) h.keys (ids_lower id) fun j hj => ?_
    by_cases hid : j = id
    · exact .inr (List.mem_singleton.2 hid)
    · refine .inl (hj.imp_left fun hj => ?_)
      rwa [handles_lower, List.count_eq_zero_of_not_mem (by simpa using hid), Nat.sub_zero]
  exact hl.collect

lemma Tidy.dropAll (h : net.Tidy []) (ids : List StageId) : (net.dropAll ids).2.Tidy [] := by
  induction ids generalizing net with
  | nil => exact h
  | cons id ids ih => exact ih (h.drop id)

lemma keys_cut (h : (net.remotes.map (·.1)).Nodup) (plug : Contact) :
    ((net.cut plug).remotes.map (·.1)).Nodup := by
  rw [Network.cut]
  split
  · exact h
  · exact h.sublist (List.filter_sublist.map _)

lemma Tidy.cut (h : net.Tidy []) (plug : Contact) :
    (net.cut plug).Tidy ((net.remote? plug).map (·.stage)).toList := by
  refine h.of_held (h.consistent.cut plug) (keys_cut h.keys plug) ids_cut fun id hid => ?_
  rcases hid with hh | ⟨a, i, s, hs, rfl⟩
  · exact .inl (.inl ((handles_cut plug id).symm ▸ hh))
  · by_cases hp : (⟨a, i⟩ : Contact) = plug
    · exact .inr (by rw [← hp, hs]; simp)
    · exact .inl (.inr ⟨a, i, s, by rwa [remote?_cut, Function.update_of_ne hp], rfl⟩)

lemma Tidy.attach {plug socket : Contact} (h : net.Tidy [])
    (hc : (net.attach plug socket).Consistent) :
    (net.attach plug socket).Tidy ((net.remote? plug).map (·.stage)).toList where
  consistent := hc
  keys := Table.nodup_keys_put (keys_cut h.keys plug) plug socket
  held id hid := by
    refine ((h.cut plug).held id hid).imp_left fun hh => ?_
    refine hh.imp (fun hh => hh) fun ⟨a, ha⟩ => ⟨a, ?_⟩
    rw [remote?_attach, pulls_update_some, ← remote?_cut]
    exact .inl ha

lemma Tidy.connect (h : net.Tidy []) (plug socket : Contact) :
    (left (Network.connect plug socket net)).Tidy [] := by
  rcases connect_cases net plug socket with ⟨e, he⟩ | ⟨hp, hs, hc, he⟩
  · rwa [he]
  · rw [he]
    exact (h.attach (h.consistent.attach_of_apart hp hs hc)).letGo

lemma Tidy.create (h : net.Tidy []) (q : Provider) (f : Filter) :
    (net.create q f).2.Tidy [] where
  consistent := h.consistent.create q f
  keys := h.keys
  held id hid := by
    refine .inl ?_
    rw [Held, handles_create h.consistent]
    have hids : (net.create q f).2.ids = net.ids ++ [net.created] := by simp [ids, Network.create]
    rw [hids, List.mem_append] at hid
    rcases hid with hid | hid
    · have hh := (h.held id hid).resolve_right List.not_mem_nil
      exact hh.imp_left fun hz => Nat.add_pos_left hz _
    · exact .inl (Nat.add_pos_right _ (List.count_pos_iff.2 hid))

lemma Tidy.edit (h : net.Tidy []) (e : Edit) : (net.edit e).Tidy [] := by
  cases e with
  | create q =>
    cases hf : q.filter with
    | ok f =>
      rw [edit_create hf]
      exact h.create q f
    | error e => rwa [Network.edit, hf]
  | hold id => exact h.hold id
  | drop id => exact h.drop id
  | connect plug socket => exact h.connect plug socket
  | disconnect plug => exact (h.cut plug).letGo
  | setOptions id o =>
    exact h.update (f := fun s => { s with options := o }) (fun _ => ⟨rfl, rfl⟩) id
      fun j => (handles_setOptions id o j).ge
  | setImage socket i =>
    exact h.update (f := (·.withImage socket.index i)) (fun _ => ⟨rfl, rfl⟩) _
      fun j => (handles_setImage socket i j).ge
  | convert input output => exact h.holdAll _
  | setInput c id => exact (h.hold id).dropAll _
  | setOutput c id => exact (h.hold id).dropAll _
  | release c =>
    show (c.release net).2.2.Tidy []
    rw [Conversion.release]
    split
    · exact h.dropAll _
    · exact h

section Alive

lemma Consistent.lives_pulls {a b : StageId} (h : net.Consistent) (hp : Pulls net.remote? a b) :
    a ∈ net.ids ∧ b ∈ net.ids := by
  obtain ⟨i, s, hs, rfl⟩ := hp
  exact (h.valid _ s hs).imp HasPlug.lives HasSocket.lives

lemma Consistent.lives_path {a b : StageId} (h : net.Consistent) (ha : a ∈ net.ids)
    (hp : ReflTransGen (Pulls net.remote?) a b) : b ∈ net.ids := by
  cases hp with
  | refl => exact ha
  | tail _ hb => exact (h.lives_pulls hb).2

lemma Consistent.acyclic_living (h : net.Consistent) :
    Acyclic fun a b : {x // x ∈ net.ids} => Pulls net.remote? a b :=
  fun x hx => h.acyclic x (TransGen.lift Subtype.val (fun _ _ hab => hab) _ _ hx)

theorem Tidy.lives_iff (h : net.Tidy []) {id : StageId} : id ∈ net.ids ↔
    ∃ j, 0 < net.handles j ∧ ReflTransGen (Pulls net.remote?) j id := by
  constructor
  · intro hid
    -- From consumer to consumer there is an end, where a handle must be the holder.
    refine h.consistent.acyclic_living.wellFounded.induction
      (C := fun x => ∃ j, 0 < net.handles j ∧ ReflTransGen (Pulls net.remote?) j x) ⟨id, hid⟩ ?_
    rintro ⟨b, hb⟩ ih
    rcases (h.held b hb).resolve_right List.not_mem_nil with hh | ⟨a, ha⟩
    · exact ⟨b, hh, .refl⟩
    · obtain ⟨j, hj, hp⟩ := ih ⟨a, (h.consistent.lives_pulls ha).1⟩ ha
      exact ⟨j, hj, hp.tail ha⟩
  · rintro ⟨j, hj, hp⟩
    refine h.consistent.lives_path ?_ hp
    by_contra hn
    rw [handles_eq_zero hn] at hj
    exact absurd hj (Nat.lt_irrefl 0)

structure Pruned (net net' : Network) : Prop where
  lived : ∀ id ∈ net'.ids, id ∈ net.ids
  remote : ∀ p, p.stage ∈ net'.ids → net'.remote? p = net.remote? p

lemma Pruned.trans {a b c : Network} (h : a.Pruned b) (h' : b.Pruned c) : a.Pruned c where
  lived id hid := h.lived id (h'.lived id hid)
  remote p hp := (h'.remote p hp).trans (h.remote p (h'.lived _ hp))

lemma pruned_restrict (keep : StageId → Bool) : net.Pruned (net.restrict keep) where
  lived id hid := by
    rw [ids_restrict] at hid
    exact List.mem_of_mem_filter hid
  remote p hp := by
    rw [ids_restrict, List.mem_filter] at hp
    rw [remote?_restrict, if_pos hp.2]

lemma pruned_drop (h : net.Consistent) (id : StageId) : net.Pruned (net.drop id).2 := by
  have hl : net.Pruned (net.lower id) := ⟨fun j hj => by rwa [ids_lower] at hj, fun _ _ => rfl⟩
  obtain ⟨keep, -, he⟩ := collect_spec (h.lower id) [id]
  rw [drop_eq, he]
  exact hl.trans (pruned_restrict keep)

lemma pruned_dropAll (h : net.Consistent) (ids : List StageId) :
    net.Pruned (net.dropAll ids).2 := by
  induction ids generalizing net with
  | nil => exact ⟨fun _ hj => hj, fun _ _ => rfl⟩
  | cons id ids ih => exact (pruned_drop h id).trans (ih (h.drop id))

lemma Pruned.pulls {net' : Network} (h : net.Pruned net') (hc : net'.Consistent) {a b : StageId}
    (hp : Pulls net'.remote? a b) : Pulls net.remote? a b := by
  obtain ⟨i, s, hs, rfl⟩ := hp
  exact ⟨i, s, by rwa [← h.remote _ (hc.valid _ s hs).1.lives], rfl⟩

lemma Pruned.path_iff {net' : Network} (h : net.Pruned net') (hc : net'.Consistent)
    {a b : StageId} (ha : a ∈ net'.ids) :
    ReflTransGen (Pulls net'.remote?) a b ↔ ReflTransGen (Pulls net.remote?) a b := by
  constructor
  · exact ReflTransGen.mono (fun _ _ => h.pulls hc) _ _
  · intro hp
    induction hp with
    | refl => exact .refl
    | tail _ hb ih =>
      obtain ⟨i, s, hs, rfl⟩ := hb
      exact ih.tail ⟨i, s, by rwa [h.remote _ (hc.lives_path ha ih)], rfl⟩

theorem lives_dropAll (h : net.Tidy []) {ids : List StageId} {id : StageId} :
    id ∈ (net.dropAll ids).2.ids ↔
      ∃ j, ids.count j < net.handles j ∧ ReflTransGen (Pulls net.remote?) j id := by
  have ht := h.dropAll ids
  rw [ht.lives_iff]
  refine exists_congr fun j => ?_
  rw [handles_dropAll h.consistent, Nat.sub_pos_iff_lt]
  refine and_congr_right fun hj => (pruned_dropAll h.consistent ids).path_iff ht.consistent ?_
  refine ht.lives_iff.2 ⟨j, ?_, .refl⟩
  rwa [handles_dropAll h.consistent, Nat.sub_pos_iff_lt]

end Alive

end Network

end ColourPipeline
