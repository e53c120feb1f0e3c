import ColourPipeline.Proofs.Graph.Consistent

/-! Connections, and which of them would close a cycle. -/

namespace ColourPipeline

open Relation

section Edges

variable {remote : Contact → Option Contact} {plug socket : Contact} {a b : StageId}

lemma Pulls.of_update_none (h : Pulls (Function.update remote plug none) a b) :
    Pulls remote a b := by
  obtain ⟨i, s, hs, rfl⟩ := h
  by_cases hp : (⟨a, i⟩ : Contact) = plug
  · rw [hp, Function.update_self] at hs
    cases hs
  · rw [Function.update_of_ne hp] at hs
    exact ⟨i, s, hs, rfl⟩

lemma pulls_update_some : Pulls (Function.update remote plug (some socket)) a b ↔
    Pulls (Function.update remote plug none) a b ∨ a = plug.stage ∧ b = socket.stage := by
  constructor
  · rintro ⟨i, s, hs, rfl⟩
    by_cases hp : (⟨a, i⟩ : Contact) = plug
    · rw [hp, Function.update_self] at hs
      exact .inr ⟨by rw [← hp], by rw [Option.some.inj hs]⟩
    · rw [Function.update_of_ne hp] at hs
      exact .inl ⟨i, s, by rwa [Function.update_of_ne hp], rfl⟩
  · rintro (⟨i, s, hs, rfl⟩ | ⟨rfl, rfl⟩)
    · by_cases hp : (⟨a, i⟩ : Contact) = plug
      · rw [hp, Function.update_self] at hs
        cases hs
      · rw [Function.update_of_ne hp] at hs
        exact ⟨i, s, by rwa [Function.update_of_ne hp], rfl⟩
    · exact ⟨plug.index, socket, Function.update_self _ _ _, rfl⟩

lemma path_update_none : ReflTransGen (Pulls (Function.update remote plug none)) a plug.stage ↔
    ReflTransGen (Pulls remote) a plug.stage := by
  constructor
  · exact ReflTransGen.mono (fun _ _ => Pulls.of_update_none) _ _
  · intro h
    refine ReflTransGen.mono ?_ _ _ (path_avoiding h)
    rintro u v ⟨⟨i, s, hs, rfl⟩, hu⟩
    have hp : (⟨u, i⟩ : Contact) ≠ plug := by
      rintro rfl
      exact hu rfl
    exact ⟨i, s, by rwa [Function.update_of_ne hp], rfl⟩

lemma path_update (x : Option Contact) :
    ReflTransGen (Pulls (Function.update remote plug x)) a plug.stage ↔
      ReflTransGen (Pulls remote) a plug.stage := by
  rw [← path_update_none, Function.update_idem, path_update_none]

theorem acyclic_update_some (h : Acyclic (Pulls remote)) :
    Acyclic (Pulls (Function.update remote plug (some socket))) ↔
      ¬ ReflTransGen (Pulls remote) socket.stage plug.stage := by
  have hn : Acyclic (Pulls (Function.update remote plug none)) :=
    h.mono fun _ _ => Pulls.of_update_none
  have hs : Pulls (Function.update remote plug (some socket)) = fun u v =>
      Pulls (Function.update remote plug none) u v ∨ u = plug.stage ∧ v = socket.stage := by
    funext u v
    exact propext pulls_update_some
  rw [hs, acyclic_with_edge hn, path_update_none]

end Edges

namespace Network

variable {net : Network} {plug socket : Contact}

lemma ids_cut : (net.cut plug).ids = net.ids := by
  rw [cut]
  split <;> rfl

lemma filter?_cut (id : StageId) : (net.cut plug).filter? id = net.filter? id := by
  rw [cut]
  split <;> rfl

lemma created_cut : (net.cut plug).created = net.created := by
  rw [cut]
  split <;> rfl

lemma remote?_cut : (net.cut plug).remote? = Function.update net.remote? plug none := by
  funext p
  rw [cut]
  cases h : net.remote? plug with
  | none =>
    dsimp only
    by_cases hp : p = plug
    · rw [hp, h, Function.update_self]
    · rw [Function.update_of_ne hp]
  | some s =>
    dsimp only
    by_cases hp : p = plug
    · rw [hp, Function.update_self]
      exact Table.lookup_remove_self plug net.remotes
    · rw [Function.update_of_ne hp]
      exact Table.lookup_remove_of_ne hp net.remotes

lemma listed_cut (s : Contact) : (net.cut plug).listed s =
    if net.remote? plug = some s then (net.attached s).filter (· ≠ plug) else net.listed s := by
  rw [cut]
  cases h : net.remote? plug with
  | none => rfl
  | some t =>
    unfold listed
    dsimp only
    by_cases ht : t = s
    · subst ht
      rw [if_pos rfl, Table.lookup_put_self]
      rfl
    · rw [if_neg (by simpa using ht), Table.lookup_put_of_ne (Ne.symm ht)]

lemma filter_lives_attached (s : Contact) :
    (net.attached s).filter (net.lives ·.stage) = net.attached s := by
  rw [attached, List.filter_filter]
  simp

lemma attached_cut (h : net.Consistent) (s : Contact) :
    (net.cut plug).attached s = (net.attached s).filter (· ≠ plug) := by
  have hl : (net.cut plug).attached s =
      ((net.cut plug).listed s).filter (net.lives ·.stage) := by
    simp only [attached, lives]
    rw [ids_cut]
  rw [hl, listed_cut]
  by_cases hs : net.remote? plug = some s
  · rw [if_pos hs, List.filter_comm, filter_lives_attached]
  · rw [if_neg hs]
    have hn : plug ∉ net.attached s := fun hp => hs ((h.paired plug s).2 hp)
    refine (List.filter_eq_self.2 fun p hp => ?_).symm
    have hne : p ≠ plug := by
      rintro rfl
      exact hn hp
    simpa using hne

lemma Consistent.cut (h : net.Consistent) (plug : Contact) : (net.cut plug).Consistent where
  nodup := by
    rw [ids_cut]
    exact h.nodup
  fresh := by
    rw [ids_cut, created_cut]
    exact h.fresh
  valid p s hps := by
    rw [remote?_cut] at hps
    by_cases hp : p = plug
    · rw [hp, Function.update_self] at hps
      cases hps
    · rw [Function.update_of_ne hp] at hps
      obtain ⟨⟨f, hf, hi⟩, g, hg, hj⟩ := h.valid p s hps
      exact ⟨⟨f, (filter?_cut _).trans hf, hi⟩, g, (filter?_cut _).trans hg, hj⟩
  known s p hp := by
    rw [listed_cut] at hp
    rw [created_cut]
    split at hp
    · exact h.known s p (List.mem_of_mem_filter (List.mem_of_mem_filter hp))
    · exact h.known s p hp
  paired p s := by
    rw [remote?_cut, attached_cut h, List.mem_filter, ← h.paired]
    by_cases hp : p = plug
    · simp [hp]
    · simp [hp]
  once s := by
    rw [attached_cut h]
    exact (h.once s).filter _
  acyclic := by
    rw [remote?_cut]
    exact h.acyclic.mono fun _ _ => Pulls.of_update_none

lemma attached_link (hp : plug.stage ∈ net.ids) (s : Contact) :
    (net.link plug socket).attached s =
      net.attached s ++ if s = socket then [plug] else [] := by
  have hl : net.lives plug.stage = true := lives_iff.2 hp
  simp only [attached]
  show ((net.link plug socket).listed s).filter (net.lives ·.stage) = _
  unfold link listed
  dsimp only
  by_cases hs : s = socket
  · rw [hs, Table.lookup_put_self, if_pos rfl, Option.getD_some, List.filter_append,
      filter_lives_attached, List.filter_cons_of_pos (by simpa using hl), List.filter_nil]
    rfl
  · rw [Table.lookup_put_of_ne hs, if_neg hs, List.append_nil]

lemma remote?_link :
    (net.link plug socket).remote? = Function.update net.remote? plug (some socket) := by
  funext p
  by_cases hp : p = plug
  · rw [hp, Function.update_self]
    exact Table.lookup_put_self plug socket net.remotes
  · rw [Function.update_of_ne hp]
    exact Table.lookup_put_of_ne hp socket net.remotes

lemma Consistent.link (h : net.Consistent) (hp : net.HasPlug plug) (hs : net.HasSocket socket)
    (hn : net.remote? plug = none)
    (hc : ¬ ReflTransGen (Pulls net.remote?) socket.stage plug.stage) :
    (net.link plug socket).Consistent where
  nodup := h.nodup
  fresh := h.fresh
  valid p s hps := by
    rw [remote?_link] at hps
    by_cases hpp : p = plug
    · rw [hpp, Function.update_self] at hps
      exact ⟨hpp ▸ hp, Option.some.inj hps ▸ hs⟩
    · rw [Function.update_of_ne hpp] at hps
      exact h.valid p s hps
  known s p hps := by
    rw [Network.link, listed] at hps
    dsimp only at hps
    by_cases hss : s = socket
    · rw [hss, Table.lookup_put_self, Option.getD_some] at hps
      rcases List.mem_append.1 hps with hps | hps
      · exact h.known socket p (List.mem_of_mem_filter hps)
      · rw [List.mem_singleton.1 hps]
        exact h.fresh _ hp.lives
    · rw [Table.lookup_put_of_ne hss] at hps
      exact h.known s p hps
  paired p s := by
    rw [remote?_link, attached_link hp.lives, List.mem_append, ← h.paired]
    by_cases hpp : p = plug
    · rw [hpp, Function.update_self, hn]
      by_cases hss : s = socket
      · simp [hss]
      · simp [hss, Ne.symm hss]
    · rw [Function.update_of_ne hpp]
      by_cases hss : s = socket <;> simp [hss, hpp]
  once s := by
    have hni : plug ∉ net.attached s := by
      rw [← h.paired, hn]
      simp
    rw [attached_link hp.lives]
    split
    · exact (h.once s).append (List.nodup_singleton _) (List.disjoint_singleton.2 hni)
    · rw [List.append_nil]
      exact h.once s
  acyclic := by
    rw [remote?_link]
    exact (acyclic_update_some h.acyclic).2 hc

lemma Consistent.attach (h : net.Consistent) (hp : net.HasPlug plug) (hs : net.HasSocket socket)
    (hc : ¬ ReflTransGen (Pulls net.remote?) socket.stage plug.stage) :
    (net.attach plug socket).Consistent := by
  obtain ⟨f, hf, hi⟩ := hp
  obtain ⟨g, hg, hj⟩ := hs
  refine (h.cut plug).link ⟨f, (filter?_cut _).trans hf, hi⟩ ⟨g, (filter?_cut _).trans hg, hj⟩ ?_ ?_
  · rw [remote?_cut, Function.update_self]
  · rwa [remote?_cut, path_update]

lemma remote?_attach :
    (net.attach plug socket).remote? = Function.update net.remote? plug (some socket) := by
  rw [Network.attach, remote?_link, remote?_cut, Function.update_idem]

lemma attached_attach (h : net.Consistent) (hp : net.HasPlug plug) (s : Contact) :
    (net.attach plug socket).attached s =
      (net.attached s).filter (· ≠ plug) ++ if s = socket then [plug] else [] := by
  have hl : plug.stage ∈ (net.cut plug).ids := by
    rw [ids_cut]
    exact hp.lives
  rw [Network.attach, attached_link hl, attached_cut h]

lemma mem_edgesInto (h : net.Consistent) {a : StageId} {e : Edge} :
    e ∈ net.edgesInto a ↔ e.plug.stage = a ∧ net.remote? e.plug = some e.socket := by
  rw [edgesInto]
  constructor
  · intro he
    cases hf : net.find? a with
    | none => simp [hf] at he
    | some s =>
      have hid : s.id = a := id_of_find? hf
      rw [hf] at he
      obtain ⟨p, hp, hpe⟩ := List.mem_filterMap.1 he
      obtain ⟨i, -, rfl⟩ := List.mem_map.1 hp
      obtain ⟨t, ht, rfl⟩ := Option.map_eq_some_iff.1 hpe
      exact ⟨hid, ht⟩
  · rintro ⟨rfl, hs⟩
    obtain ⟨⟨f, hf, hi⟩, -⟩ := h.valid _ _ hs
    obtain ⟨t, ht, rfl⟩ := Option.map_eq_some_iff.1 hf
    have hid : t.id = e.plug.stage := id_of_find? ht
    rw [show net.find? e.plug.stage = some t from ht]
    refine List.mem_filterMap.2 ⟨e.plug, ?_, by rw [hs]; rfl⟩
    exact List.mem_map.2 ⟨e.plug.index, List.mem_range.2 hi, by rw [hid]⟩

lemma mem_suppliers (h : net.Consistent) {a b : StageId} :
    b ∈ net.suppliers a ↔ Pulls net.remote? a b := by
  rw [suppliers, List.mem_map]
  constructor
  · rintro ⟨⟨⟨_, i⟩, s⟩, he, rfl⟩
    obtain ⟨rfl, hs⟩ := (mem_edgesInto h).1 he
    exact ⟨i, s, hs, rfl⟩
  · rintro ⟨i, s, hs, rfl⟩
    exact ⟨⟨⟨a, i⟩, s⟩, (mem_edgesInto h).2 ⟨rfl, hs⟩, rfl⟩

lemma mem_edgesFrom (h : net.Consistent) {a : StageId} {e : Edge} :
    e ∈ net.edgesFrom a ↔ e.socket.stage = a ∧ net.remote? e.plug = some e.socket := by
  rw [edgesFrom]
  constructor
  · intro he
    cases hf : net.find? a with
    | none => simp [hf] at he
    | some s =>
      have hid : s.id = a := id_of_find? hf
      rw [hf] at he
      obtain ⟨q, hq, hqe⟩ := List.mem_flatMap.1 he
      obtain ⟨i, -, rfl⟩ := List.mem_map.1 hq
      obtain ⟨p, hp, rfl⟩ := List.mem_map.1 hqe
      exact ⟨hid, (h.paired _ _).2 hp⟩
  · rintro ⟨rfl, hs⟩
    obtain ⟨-, g, hg, hj⟩ := h.valid _ _ hs
    obtain ⟨t, ht, rfl⟩ := Option.map_eq_some_iff.1 hg
    have hid : t.id = e.socket.stage := id_of_find? ht
    rw [show net.find? e.socket.stage = some t from ht]
    refine List.mem_flatMap.2 ⟨e.socket, ?_, List.mem_map.2 ⟨e.plug, (h.paired _ _).1 hs, rfl⟩⟩
    exact List.mem_map.2 ⟨e.socket.index, List.mem_range.2 hj, by rw [hid]⟩

lemma mem_consumers (h : net.Consistent) {a b : StageId} :
    b ∈ net.consumers a ↔ Pulls net.remote? b a := by
  rw [consumers, List.mem_map]
  constructor
  · rintro ⟨⟨⟨_, i⟩, s⟩, he, rfl⟩
    obtain ⟨hs, he⟩ := (mem_edgesFrom h).1 he
    exact ⟨i, s, he, hs⟩
  · rintro ⟨i, s, hs, rfl⟩
    exact ⟨⟨⟨b, i⟩, s⟩, (mem_edgesFrom h).2 ⟨rfl, hs⟩, rfl⟩

theorem closesCycle_iff (h : net.Consistent) : net.closesCycle plug socket = true ↔
    ReflTransGen (Pulls net.remote?) socket.stage plug.stage := by
  have hr : (fun a b => b ∈ net.suppliers a) = Pulls net.remote? := by
    funext a b
    exact propext (mem_suppliers h)
  have hin (a b : StageId) (hb : b ∈ net.suppliers a) : b ∈ net.ids := by
    obtain ⟨i, s, hs, rfl⟩ := (mem_suppliers h).1 hb
    exact (h.valid _ s hs).2.lives
  rw [closesCycle, walk, List.contains_iff_mem, ← hr]
  exact mem_search hin

end Network

end ColourPipeline
