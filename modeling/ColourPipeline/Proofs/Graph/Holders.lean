import ColourPipeline.Proofs.Graph.Run

namespace ColourPipeline

open Relation

namespace Network

variable {net : Network}

def handles (net : Network) (id : StageId) : ℕ := ((net.find? id).map (·.handles)).getD 0

def Held (net : Network) (id : StageId) : Prop :=
  0 < net.handles id ∨ ∃ a, Pulls net.remote? a id

lemma handles_of_find? {id : StageId} {s : Stage} (h : net.find? id = some s) :
    net.handles id = s.handles := by
  rw [handles, h]
  rfl

lemma handles_eq_zero {id : StageId} (h : id ∉ net.ids) : net.handles id = 0 := by
  rw [handles, Option.not_isSome_iff_eq_none.1 (mt find?_isSome.1 h)]
  rfl

lemma isHeld_iff (hk : (net.remotes.map (·.1)).Nodup) {id : StageId} :
    net.isHeld id = true ↔ net.Held id := by
  rw [isHeld, Bool.or_eq_true, Held]
  refine or_congr ?_ ?_
  · rw [handles]
    cases net.find? id <;> simp
  · rw [List.any_eq_true]
    constructor
    · rintro ⟨⟨p, s⟩, hm, hs⟩
      exact ⟨p.stage, p.index, s, Table.lookup_of_mem hk hm, by simpa using hs⟩
    · rintro ⟨a, i, s, hs, rfl⟩
      obtain ⟨l, l', hl, -⟩ := List.lookup_eq_some_iff.1 hs
      exact ⟨(⟨a, i⟩, s), by rw [hl]; simp, by simp⟩

section Counts

lemma handles_restrict {keep : StageId → Bool}
    (h : ∀ id s, net.find? id = some s → keep id = false → s.handles = 0) (id : StageId) :
    (net.restrict keep).handles id = net.handles id := by
  rw [handles, find?_restrict]
  split
  · rfl
  · rename_i hk
    cases hf : net.find? id with
    | none => rw [handles, hf]
    | some s => rw [handles_of_find? hf, h id s hf (by simpa using hk)]; rfl

lemma handles_collect (h : net.Consistent) (ids : List StageId) (id : StageId) :
    (net.collect ids).2.handles id = net.handles id := by
  obtain ⟨keep, hk, he⟩ := collect_spec h ids
  rw [he, handles_restrict hk.idle]

lemma handles_letGo (h : net.Consistent) (o : Option Contact) (id : StageId) :
    (net.letGo o).2.handles id = net.handles id := by
  cases o with
  | none => rfl
  | some s => exact handles_collect h [s.stage] id

lemma handles_update {f : Stage → Stage} (hf : ∀ s, (f s).id = s.id ∧ (f s).filter = s.filter)
    (g : ℕ → ℕ) (hg : ∀ s, (f s).handles = g s.handles) (id j : StageId) :
    (net.update f id).handles j =
      if j ∈ net.ids ∧ j = id then g (net.handles j) else net.handles j := by
  rw [handles, handles, find?_update hf]
  cases hs : net.find? j with
  | none =>
    have hj : j ∉ net.ids := by simp [← find?_isSome, hs]
    simp [hj]
  | some s =>
    have hj : j ∈ net.ids := by simp [← find?_isSome, hs]
    have hid : s.id = j := id_of_find? hs
    by_cases he : j = id
    · rw [if_pos ⟨hj, he⟩]
      simp [hid, he, hg]
    · simp [he, hid]

lemma handles_setOptions (id : StageId) (o : OptionSet) (j : StageId) :
    (net.setOptions id o).handles j = net.handles j := by
  rw [setOptions, handles_update (f := fun s => { s with options := o }) (fun _ => ⟨rfl, rfl⟩)
    (fun n => n) fun _ => rfl]
  exact ite_self _

lemma handles_setImage (socket : Contact) (i : Image) (j : StageId) :
    (net.setImage socket i).handles j = net.handles j := by
  rw [setImage, handles_update (f := (·.withImage socket.index i)) (fun _ => ⟨rfl, rfl⟩)
    (fun n => n) fun _ => rfl]
  exact ite_self _

lemma handles_hold {id : StageId} (h : id ∈ net.ids) (j : StageId) :
    (net.hold id).handles j = net.handles j + [id].count j := by
  rw [hold, handles_update (f := fun s => { s with handles := s.handles + 1 })
    (fun _ => ⟨rfl, rfl⟩) (· + 1) fun _ => rfl]
  by_cases hj : j = id
  · simp [hj, h]
  · simp [hj, Ne.symm hj]

lemma ids_hold (id : StageId) : (net.hold id).ids = net.ids :=
  ids_update (f := fun s => { s with handles := s.handles + 1 }) (fun _ => ⟨rfl, rfl⟩) id

lemma handles_holdAll {ids : List StageId} (h : ∀ id ∈ ids, id ∈ net.ids) (j : StageId) :
    (ids.foldl hold net).handles j = net.handles j + ids.count j := by
  induction ids generalizing net with
  | nil => rfl
  | cons id ids ih =>
    have hid : ∀ k ∈ ids, k ∈ (net.hold id).ids := fun k hk => by
      rw [ids_hold]
      exact h k (List.mem_cons_of_mem id hk)
    rw [List.foldl_cons, ih hid, handles_hold (h id List.mem_cons_self), Nat.add_assoc,
      ← List.count_append, List.singleton_append]

def lower (net : Network) (id : StageId) : Network :=
  net.update (fun s => { s with handles := s.handles - 1 }) id

lemma drop_eq (id : StageId) : net.drop id = (net.lower id).collect [id] := rfl

lemma Consistent.lower (h : net.Consistent) (id : StageId) : (net.lower id).Consistent :=
  h.update (f := fun s => { s with handles := s.handles - 1 }) (fun _ => ⟨rfl, rfl⟩) id

lemma handles_lower (id j : StageId) :
    (net.lower id).handles j = net.handles j - [id].count j := by
  rw [lower, handles_update (f := fun s => { s with handles := s.handles - 1 })
    (fun _ => ⟨rfl, rfl⟩) (· - 1) fun _ => rfl]
  by_cases hj : j = id
  · by_cases hl : id ∈ net.ids
    · simp [hj, hl]
    · simp [hj, hl, handles_eq_zero hl]
  · simp [hj, Ne.symm hj]

lemma ids_lower (id : StageId) : (net.lower id).ids = net.ids :=
  ids_update (f := fun s => { s with handles := s.handles - 1 }) (fun _ => ⟨rfl, rfl⟩) id

lemma handles_drop (h : net.Consistent) (id j : StageId) :
    (net.drop id).2.handles j = net.handles j - [id].count j := by
  rw [drop_eq, handles_collect (h.lower id), handles_lower]

lemma handles_dropAll (h : net.Consistent) (ids : List StageId) (j : StageId) :
    (net.dropAll ids).2.handles j = net.handles j - ids.count j := by
  induction ids generalizing net with
  | nil => rfl
  | cons id ids ih =>
    show ((net.drop id).2.dropAll ids).2.handles j = _
    rw [ih (h.drop id), handles_drop h, Nat.sub_sub, ← List.count_append, List.singleton_append]

lemma handles_cut (plug : Contact) (id : StageId) :
    (net.cut plug).handles id = net.handles id := by
  rw [handles, find?_cut, handles]

lemma handles_disconnect (h : net.Consistent) (plug : Contact) (id : StageId) :
    (net.disconnect plug).2.handles id = net.handles id := by
  rw [disconnect, handles_letGo (h.cut plug), handles_cut]

lemma handles_connect (h : net.Consistent) (plug socket : Contact) (id : StageId) :
    (left (Network.connect plug socket net)).handles id = net.handles id := by
  rcases connect_cases net plug socket with ⟨e, he⟩ | ⟨hp, hs, hc, he⟩
  · rw [he, left]
  · rw [he, left, handles_letGo (h.attach_of_apart hp hs hc)]
    exact handles_cut plug id

lemma handles_create (h : net.Consistent) (q : Provider) (f : Filter) (id : StageId) :
    (net.create q f).2.handles id = net.handles id + [net.created].count id := by
  rw [handles, find?_create, handles]
  by_cases hid : net.created = id
  · have hn : net.find? id = none := by
      rw [← Option.not_isSome_iff_eq_none, find?_isSome]
      exact fun hl => (h.fresh id hl).ne hid.symm
    simp [hn, hid]
  · simp [hid]

end Counts

end Network

end ColourPipeline
