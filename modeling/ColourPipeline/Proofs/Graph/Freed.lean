import ColourPipeline.Proofs.Graph.Run

/-! The stages that are freed and those that are left are the ones there were. -/

namespace ColourPipeline

def Stage.identity (s : Stage) : StageId × Provider × Filter := (s.id, s.provider, s.filter)

namespace Network

variable {net : Network} {r : List Stage × Network} {id : StageId} {s t : Stage}

structure Parts (net : Network) (r : List Stage × Network) : Prop where
  stages : ((r.1 ++ r.2.stages).map Stage.identity).Perm (net.stages.map Stage.identity)
  created : r.2.created = net.created

lemma parts_self (net : Network) : net.Parts ([], net) := ⟨.refl _, rfl⟩

lemma Parts.of_update {f : Stage → Stage} (hf : ∀ s, (f s).identity = s.identity)
    (h : (net.update f id).Parts r) : net.Parts r where
  stages := by
    have hs : (net.update f id).stages.map Stage.identity = net.stages.map Stage.identity := by
      rw [update, List.map_map]
      refine List.map_congr_left fun s _ => ?_
      by_cases hid : s.id = id <;> simp [hid, hf]
    exact hs ▸ h.stages
  created := h.created

lemma Parts.append {freed : List Stage} {net' : Network} {r' : List Stage × Network}
    (h : net.Parts (freed, net')) (h' : net'.Parts r') : net.Parts (freed ++ r'.1, r'.2) where
  stages := by
    have hp := (h'.stages.append_left (freed.map Stage.identity)).trans
      ((List.Perm.of_eq List.map_append.symm).trans h.stages)
    rwa [← List.map_append, ← List.append_assoc] at hp
  created := h'.created.trans h.created

lemma perm_remove (hn : net.ids.Nodup) (hs : net.find? id = some s) :
    net.stages.Perm (s :: (net.remove id).stages) := by
  have hid : s.id = id := id_of_find? hs
  have hm : s ∈ net.stages := List.mem_of_find?_eq_some hs
  obtain ⟨before, after, hl⟩ := List.append_of_mem hm
  have hn' : (before.map (·.id) ++ s.id :: after.map (·.id)).Nodup := by
    rw [ids, hl, List.map_append, List.map_cons] at hn
    exact hn
  have hne := List.nodup_middle.1 hn'
  rw [List.nodup_cons, ← List.map_append, List.mem_map] at hne
  have hr : (net.remove id).stages = before ++ after := by
    rw [remove, restrict, hl]
    dsimp only
    rw [List.filter_append, List.filter_cons_of_neg (by simp [hid]), ← List.filter_append]
    refine List.filter_eq_self.2 fun u hu => ?_
    have hu : u.id ≠ id := fun h => hne.1 ⟨u, hu, h.trans hid.symm⟩
    simpa using hu
  rw [hr, hl]
  exact List.perm_middle

lemma parts_collect (hn : net.ids.Nodup) (ids : List StageId) : net.Parts (net.collect ids) := by
  induction net, ids using collect.induct with
  | case1 net =>
    rw [collect]
    exact parts_self net
  | case2 net id ids hf ih =>
    rw [collect_of_none hf]
    exact ih hn
  | case3 net id ids s hf hh ih =>
    rw [collect_of_held hh]
    exact ih hn
  | case4 net id ids s hf hh freed rest _ ih =>
    rw [collect_of_free hf hh]
    have hn' : (net.remove id).ids.Nodup := by
      rw [Network.remove, ids_restrict]
      exact hn.filter _
    have hone : net.Parts ([s], net.remove id) :=
      ⟨((perm_remove hn hf).map Stage.identity).symm, rfl⟩
    exact hone.append (ih hn')

lemma parts_drop (h : net.Consistent) (id : StageId) : net.Parts (net.drop id) := by
  have hl : (net.update (fun s => { s with handles := s.handles - 1 }) id).ids.Nodup :=
    (Consistent.update (f := fun s => { s with handles := s.handles - 1 }) (fun _ => ⟨rfl, rfl⟩) h
      id).nodup
  exact Parts.of_update (f := fun s => { s with handles := s.handles - 1 }) (fun _ => rfl)
    (parts_collect hl [id])

lemma parts_dropAll (h : net.Consistent) (ids : List StageId) : net.Parts (net.dropAll ids) := by
  induction ids generalizing net with
  | nil => exact parts_self net
  | cons id ids ih => exact (parts_drop h id).append (ih (h.drop id))

lemma parts_letGo (h : net.Consistent) (o : Option Contact) : net.Parts (net.letGo o) := by
  cases o with
  | none => exact parts_self net
  | some c => exact parts_collect h.nodup [c.stage]

lemma stages_cut (net : Network) (plug : Contact) : (net.cut plug).stages = net.stages := by
  rw [cut]
  split <;> rfl

lemma parts_disconnect (h : net.Consistent) (plug : Contact) :
    net.Parts (net.disconnect plug) := by
  have hp := parts_letGo (h.cut plug) (net.remote? plug)
  exact ⟨stages_cut net plug ▸ hp.stages, hp.created.trans created_cut⟩

lemma parts_connect (h : net.Consistent) {plug socket : Contact} {freed : List Stage}
    {rest : Network} (hc : Network.connect plug socket net = .ok freed rest) :
    net.Parts (freed, rest) := by
  rcases connect_cases net plug socket with ⟨e, he⟩ | ⟨hp, hs, hcyc, he⟩
  · rw [he] at hc
    cases hc
  · rw [he] at hc
    cases hc
    have hp := parts_letGo (h.attach_of_apart hp hs hcyc) (net.remote? plug)
    exact ⟨stages_cut net plug ▸ hp.stages, hp.created.trans created_cut⟩

lemma parts_hold (id : StageId) : net.Parts ([], net.hold id) :=
  Parts.of_update (f := fun s => { s with handles := s.handles + 1 }) (fun _ => rfl)
    (parts_self (net.hold id))

lemma parts_holdAll (ids : List StageId) : net.Parts ([], ids.foldl hold net) := by
  induction ids generalizing net with
  | nil => exact parts_self net
  | cons id ids ih => exact (parts_hold id).append (@ih (net.hold id))

section Members

lemma identity_id (h : t.identity = s.identity) : t.id = s.id := congrArg Prod.fst h

lemma identity_provider (h : t.identity = s.identity) : t.provider = s.provider :=
  congrArg (·.2.1) h

lemma identity_filter (h : t.identity = s.identity) : t.filter = s.filter := congrArg (·.2.2) h

lemma find?_of_mem (hn : net.ids.Nodup) (h : s ∈ net.stages) : net.find? s.id = some s := by
  obtain ⟨before, after, hl⟩ := List.append_of_mem h
  have hb : ∀ u ∈ before, (u.id == s.id) = false := by
    rw [ids, hl, List.map_append, List.map_cons, List.nodup_append] at hn
    exact fun u hu => beq_eq_false_iff_ne.2
      (hn.2.2 _ (List.mem_map_of_mem hu) _ List.mem_cons_self)
  rw [find?, hl, List.find?_append, List.find?_eq_none.2 (by simpa using hb)]
  simp

lemma Parts.nodup (h : net.Parts r) (hn : net.ids.Nodup) :
    (r.1.map (·.id) ++ r.2.ids).Nodup := by
  have hp := h.stages.map Prod.fst
  rw [List.map_map, List.map_map, List.map_append] at hp
  exact hp.nodup_iff.2 hn

lemma Parts.of_freed (h : net.Parts r) (hn : net.ids.Nodup) (ht : t ∈ r.1) :
    (∃ s, net.find? t.id = some s ∧ s.identity = t.identity) ∧ t.id ∉ r.2.ids := by
  constructor
  · have hm : t.identity ∈ net.stages.map Stage.identity :=
      h.stages.subset (List.mem_map_of_mem (List.mem_append_left _ ht))
    obtain ⟨s, hs, he⟩ := List.mem_map.1 hm
    exact ⟨s, by rw [← identity_id he]; exact find?_of_mem hn hs, he⟩
  · exact fun hid => (List.nodup_append.1 (h.nodup hn)).2.2 _ (List.mem_map_of_mem ht) _ hid rfl

lemma Parts.of_left (h : net.Parts r) (hn : net.ids.Nodup) (ht : r.2.find? id = some t) :
    ∃ s, net.find? id = some s ∧ s.identity = t.identity := by
  have hid : t.id = id := id_of_find? ht
  have hm : t.identity ∈ net.stages.map Stage.identity :=
    h.stages.subset (List.mem_map_of_mem
      (List.mem_append_right _ (List.mem_of_find?_eq_some ht)))
  obtain ⟨s, hs, he⟩ := List.mem_map.1 hm
  exact ⟨s, by rw [← hid, ← identity_id he]; exact find?_of_mem hn hs, he⟩

lemma Parts.freed_or_left (h : net.Parts r) (hn : net.ids.Nodup) (hs : net.find? id = some s) :
    (∃ t ∈ r.1, t.identity = s.identity) ∨
      ∃ t, r.2.find? id = some t ∧ t.identity = s.identity := by
  have hid : s.id = id := id_of_find? hs
  have hm : s.identity ∈ (r.1 ++ r.2.stages).map Stage.identity :=
    h.stages.symm.subset (List.mem_map_of_mem (List.mem_of_find?_eq_some hs))
  obtain ⟨t, ht, he⟩ := List.mem_map.1 hm
  rcases List.mem_append.1 ht with ht | ht
  · exact .inl ⟨t, ht, he⟩
  · have hn' := (List.nodup_append.1 (h.nodup hn)).2.1
    exact .inr ⟨t, by rw [← hid, ← identity_id he]; exact find?_of_mem hn' ht, he⟩

end Members

end Network

end ColourPipeline
