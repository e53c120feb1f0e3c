import ColourPipeline.Graph.Connection
import ColourPipeline.Graph.Conversion
import ColourPipeline.Proofs.Graph.Search

namespace ColourPipeline

open Relation

def Pulls (remote : Contact → Option Contact) (a b : StageId) : Prop :=
  ∃ i s, remote ⟨a, i⟩ = some s ∧ s.stage = b

namespace Network

variable {net : Network}

def filter? (net : Network) (id : StageId) : Option Filter := (net.find? id).map (·.filter)

def HasPlug (net : Network) (p : Contact) : Prop :=
  ∃ f, net.filter? p.stage = some f ∧ p.index < f.plugs.length

def HasSocket (net : Network) (s : Contact) : Prop :=
  ∃ f, net.filter? s.stage = some f ∧ s.index < f.sockets.length

lemma find?_isSome {id : StageId} : (net.find? id).isSome ↔ id ∈ net.ids := by
  rw [find?, List.find?_isSome, ids, List.mem_map]
  simp

lemma id_of_find? {id : StageId} {s : Stage} (h : net.find? id = some s) : s.id = id := by
  simpa using List.find?_some h

lemma lives_iff {id : StageId} : net.lives id = true ↔ id ∈ net.ids := by
  simp [lives]

lemma filter?_eq_some {id : StageId} {f : Filter} (h : net.filter? id = some f) : id ∈ net.ids := by
  rw [← find?_isSome]
  rw [filter?] at h
  cases hf : net.find? id with
  | none => simp [hf] at h
  | some s => rfl

lemma HasPlug.lives {p : Contact} (h : net.HasPlug p) : p.stage ∈ net.ids := by
  obtain ⟨f, hf, -⟩ := h
  exact filter?_eq_some hf

lemma HasSocket.lives {s : Contact} (h : net.HasSocket s) : s.stage ∈ net.ids := by
  obtain ⟨f, hf, -⟩ := h
  exact filter?_eq_some hf

lemma hasPlug_of_plug {p : Contact} {c : Connector} (h : net.plug p = .ok c) : net.HasPlug p := by
  rw [Network.plug, Network.stage] at h
  cases hf : net.find? p.stage with
  | none => simp [hf, bind, Except.bind] at h
  | some s =>
    simp only [hf, bind, Except.bind, Stage.plug] at h
    cases hc : s.filter.plugs[p.index]? with
    | none => simp [hc] at h
    | some d => exact ⟨s.filter, by simp [filter?, hf], (List.getElem?_eq_some_iff.1 hc).1⟩

lemma hasSocket_of_socket {s : Contact} {c : Connector} (h : net.socket s = .ok c) :
    net.HasSocket s := by
  rw [Network.socket, Network.stage] at h
  cases hf : net.find? s.stage with
  | none => simp [hf, bind, Except.bind] at h
  | some t =>
    simp only [hf, bind, Except.bind, Stage.socket] at h
    cases hc : t.filter.sockets[s.index]? with
    | none => simp [hc] at h
    | some d => exact ⟨t.filter, by simp [filter?, hf], (List.getElem?_eq_some_iff.1 hc).1⟩

section Restrict

variable {keep : StageId → Bool}

lemma find?_restrict (id : StageId) :
    (net.restrict keep).find? id = if keep id then net.find? id else none := by
  simp only [find?, restrict]
  rw [List.find?_filter]
  induction net.stages with
  | nil => simp
  | cons s ss ih =>
    by_cases h : s.id = id
    · subst h
      by_cases hk : keep s.id = true <;> simp_all
    · simp_all

lemma filter?_restrict (id : StageId) :
    (net.restrict keep).filter? id = if keep id then net.filter? id else none := by
  rw [filter?, find?_restrict]
  split <;> rfl

lemma ids_restrict : (net.restrict keep).ids = net.ids.filter keep := by
  simp [ids, restrict, List.filter_map, Function.comp_def]

lemma remote?_restrict (p : Contact) :
    (net.restrict keep).remote? p = if keep p.stage then net.remote? p else none :=
  Table.lookup_filter (fun q : Contact => keep q.stage) p net.remotes

lemma listed_restrict (s : Contact) :
    (net.restrict keep).listed s = if keep s.stage then net.listed s else [] := by
  have h := Table.lookup_filter (fun q : Contact => keep q.stage) s net.listings
  rw [listed, restrict]
  dsimp only
  rw [h]
  split <;> rfl

lemma attached_restrict (s : Contact) :
    (net.restrict keep).attached s =
      if keep s.stage then (net.attached s).filter (keep ·.stage) else [] := by
  simp only [attached, lives]
  rw [listed_restrict, ids_restrict]
  split
  · rw [List.filter_filter]
    congr 1
    funext q
    simp [Bool.and_comm, List.contains_eq_mem, List.mem_filter]
  · rfl

end Restrict

/-- Both ends of every connection know of each other and live, and there is no way round. -/
structure Consistent (net : Network) : Prop where
  nodup : net.ids.Nodup
  fresh : ∀ id ∈ net.ids, id < net.created
  valid : ∀ p s, net.remote? p = some s → net.HasPlug p ∧ net.HasSocket s
  known : ∀ s, ∀ p ∈ net.listed s, p.stage < net.created
  paired : ∀ p s, net.remote? p = some s ↔ p ∈ net.attached s
  once : ∀ s, (net.attached s).Nodup
  acyclic : Acyclic (Pulls net.remote?)

lemma consistent_empty : Consistent empty where
  nodup := List.nodup_nil
  fresh _ h := by cases h
  valid _ _ h := by cases h
  known _ _ h := by cases h
  paired _ _ := by
    constructor <;>
      · intro h
        cases h
  once _ := List.nodup_nil
  acyclic x h := by
    obtain ⟨y, ⟨i, s, hs, -⟩, -⟩ := TransGen.head'_iff.1 h
    cases hs

lemma Consistent.restrict {keep : StageId → Bool} (h : net.Consistent)
    (hk : ∀ p s, net.remote? p = some s → keep p.stage = true → keep s.stage = true) :
    (net.restrict keep).Consistent where
  nodup := by
    rw [ids_restrict]
    exact h.nodup.filter _
  fresh id hid := by
    rw [ids_restrict] at hid
    exact h.fresh id (List.mem_of_mem_filter hid)
  valid p s hps := by
    rw [remote?_restrict] at hps
    split at hps
    · rename_i hp
      obtain ⟨⟨f, hf, hi⟩, g, hg, hj⟩ := h.valid p s hps
      have hs := hk p s hps hp
      exact ⟨⟨f, by rw [filter?_restrict, if_pos hp, hf], hi⟩,
        g, by rw [filter?_restrict, if_pos hs, hg], hj⟩
    · cases hps
  known s p hp := by
    rw [listed_restrict] at hp
    split at hp
    · exact h.known s p hp
    · cases hp
  paired p s := by
    rw [remote?_restrict, attached_restrict]
    by_cases hp : keep p.stage = true
    · rw [if_pos hp]
      by_cases hs : keep s.stage = true
      · rw [if_pos hs, List.mem_filter, h.paired]
        exact ⟨fun hps => ⟨hps, hp⟩, And.left⟩
      · rw [if_neg hs]
        exact ⟨fun hps => absurd (hk p s hps hp) hs, fun hps => by cases hps⟩
    · rw [if_neg hp]
      constructor
      · intro hps
        cases hps
      · intro hps
        split at hps
        · exact absurd (List.mem_filter.1 hps).2 hp
        · cases hps
  once s := by
    rw [attached_restrict]
    split
    · exact (h.once s).filter _
    · exact List.nodup_nil
  acyclic := by
    refine h.acyclic.mono fun a b hab => ?_
    obtain ⟨i, s, hs, rfl⟩ := hab
    rw [remote?_restrict] at hs
    split at hs
    · exact ⟨i, s, hs, rfl⟩
    · cases hs

lemma Consistent.of_eq {net' : Network} (h : net.Consistent) (hi : net'.ids = net.ids)
    (hc : net'.created = net.created) (hf : ∀ id, net'.filter? id = net.filter? id)
    (hr : net'.remotes = net.remotes) (hl : net'.listings = net.listings) : net'.Consistent := by
  have hrem (p : Contact) : net'.remote? p = net.remote? p := by rw [remote?, hr, remote?]
  have hlis (s : Contact) : net'.listed s = net.listed s := by rw [listed, hl, listed]
  have hatt (s : Contact) : net'.attached s = net.attached s := by
    simp only [attached, lives]
    rw [hlis, hi]
  refine ⟨?_, ?_, ?_, ?_, ?_, ?_, ?_⟩
  · exact hi ▸ h.nodup
  · exact hi ▸ hc ▸ h.fresh
  · intro p s hps
    rw [hrem] at hps
    obtain ⟨⟨f, hff, hp⟩, g, hg, hs⟩ := h.valid p s hps
    exact ⟨⟨f, (hf _).trans hff, hp⟩, g, (hf _).trans hg, hs⟩
  · intro s p hp
    rw [hlis] at hp
    exact hc ▸ h.known s p hp
  · intro p s
    rw [hrem, hatt]
    exact h.paired p s
  · intro s
    exact hatt s ▸ h.once s
  · have : net'.remote? = net.remote? := funext hrem
    exact this ▸ h.acyclic

section Update

variable {f : Stage → Stage} (hf : ∀ s, (f s).id = s.id ∧ (f s).filter = s.filter)

include hf

lemma ids_update (id : StageId) : (net.update f id).ids = net.ids := by
  rw [ids, update, List.map_map]
  apply List.map_congr_left
  intro s _
  by_cases h : s.id = id <;> simp [h, hf]

lemma find?_update (id j : StageId) : (net.update f id).find? j =
    (net.find? j).map fun s => if s.id = id then f s else s := by
  unfold find? update
  dsimp only
  induction net.stages with
  | nil => rfl
  | cons s ss ih =>
    have hs : (if s.id = id then f s else s).id = s.id := by split <;> simp [hf]
    rw [List.map_cons, List.find?_cons, List.find?_cons, hs]
    cases s.id == j with
    | true => rfl
    | false => exact ih

lemma filter?_update (id j : StageId) : (net.update f id).filter? j = net.filter? j := by
  simp only [filter?]
  rw [find?_update hf]
  cases net.find? j with
  | none => rfl
  | some s =>
    refine congrArg some ?_
    by_cases h : s.id = id <;> simp [h, hf]

lemma Consistent.update (h : net.Consistent) (id : StageId) : (net.update f id).Consistent :=
  h.of_eq (ids_update hf id) rfl (filter?_update hf id) rfl rfl

end Update

lemma find?_create (net : Network) (p : Provider) (f : Filter) (id : StageId) :
    (net.create p f).2.find? id =
      (net.find? id).or (if net.created = id then
        some ⟨net.created, p, f, f.defaults, f.sockets.map fun _ => none, 1⟩ else none) := by
  rw [find?, create]
  dsimp only
  rw [List.find?_append, find?]
  by_cases hid : net.created = id <;> simp [hid]

lemma filter?_create {p : Provider} {f : Filter} {id : StageId} (h : id ∈ net.ids) :
    (net.create p f).2.filter? id = net.filter? id := by
  obtain ⟨s, hs⟩ := Option.isSome_iff_exists.1 (find?_isSome.2 h)
  rw [filter?, find?_create, hs, filter?, hs]
  rfl

lemma attached_create (h : net.Consistent) (p : Provider) (f : Filter) (s : Contact) :
    (net.create p f).2.attached s = net.attached s := by
  refine List.filter_congr fun q hq => ?_
  have hne : q.stage ≠ net.created := (h.known s q hq).ne
  simp [lives, ids, create, hne]

lemma Consistent.create (h : net.Consistent) (p : Provider) (f : Filter) :
    (net.create p f).2.Consistent := by
  have hids : (net.create p f).2.ids = net.ids ++ [net.created] := by simp [ids, Network.create]
  refine ⟨?_, ?_, ?_, ?_, ?_, ?_, h.acyclic⟩
  · rw [hids]
    refine List.Nodup.append h.nodup (List.nodup_singleton _) ?_
    rw [List.disjoint_singleton]
    exact fun hc => (h.fresh _ hc).false
  · rw [hids]
    intro id hid
    rcases List.mem_append.1 hid with hid | hid
    · exact Nat.lt_succ_of_lt (h.fresh id hid)
    · exact Nat.lt_succ_of_le (List.mem_singleton.1 hid).le
  · intro q s hqs
    obtain ⟨hq, hs⟩ := h.valid q s hqs
    have hqf := filter?_create (p := p) (f := f) hq.lives
    have hsf := filter?_create (p := p) (f := f) hs.lives
    exact ⟨by rwa [HasPlug, hqf], by rwa [HasSocket, hsf]⟩
  · exact fun s q hq => Nat.lt_succ_of_lt (h.known s q hq)
  · intro q s
    rw [attached_create h]
    exact h.paired q s
  · intro s
    rw [attached_create h]
    exact h.once s

end Network

end ColourPipeline
