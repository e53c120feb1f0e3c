import ColourPipeline.Proofs.Graph.Distance
import ColourPipeline.Proofs.Graph.Release

namespace ColourPipeline

open Relation

section Levels

variable {α : Type} [DecidableEq α] {next : α → List α} {all : List α} {start : α}

lemma le_length_upTo {n : ℕ} (h : ∀ m < n, (level next all start m).1 ≠ []) :
    n ≤ (upTo next all start n).length := by
  induction n with
  | zero => exact Nat.zero_le _
  | succ n ih =>
    have hn := ih fun m hm => h m (by omega)
    have hpos := List.length_pos_of_ne_nil (h n (by omega))
    rw [upTo, List.range_succ, List.flatMap_append, List.flatMap_singleton, List.length_append,
      ← upTo]
    omega

variable (next all start) in
lemma exists_search_eq_upTo : ∃ n, search next all start = upTo next all start n := by
  by_contra hne
  have hlevels (n : ℕ) : (level next all start n).1 ≠ [] := by
    intro hn
    refine hne ⟨n, ?_⟩
    rw [search_eq n, hn, reach, List.append_nil]
  have hlong : _ ≤ (upTo next all start _).length :=
    @le_length_upTo _ _ _ _ _ ((search next all start).length + 1) fun m _ => hlevels m
  have hsearch : (search next all start).length = _ :=
    congrArg List.length (search_eq ((search next all start).length + 1))
  rw [List.length_append] at hsearch
  omega

lemma pairwise_search (h : ∀ x y, y ∈ next x → y ∈ all) :
    (search next all start).Pairwise fun x y => ∃ m n, m ≤ n ∧
      AtDistance (fun x y => y ∈ next x) m start x ∧
        AtDistance (fun x y => y ∈ next x) n start y := by
  obtain ⟨n, hn⟩ := exists_search_eq_upTo next all start
  rw [hn, upTo, List.pairwise_flatMap]
  constructor
  · intro m _
    refine List.pairwise_of_forall_mem_list fun x hx y hy => ?_
    exact ⟨m, m, le_rfl, ((mem_level h m).1 x).1 hx, ((mem_level h m).1 y).1 hy⟩
  · refine List.pairwise_lt_range.imp fun {m k} hmk x hx y hy => ?_
    exact ⟨m, k, hmk.le, ((mem_level h m).1 x).1 hx, ((mem_level h k).1 y).1 hy⟩

end Levels

namespace Network

variable {net : Network} {start a b : StageId} {d : Direction} {e : Edge}

def Joined (net : Network) : Direction → StageId → StageId → Prop
  | .toSuppliers, a, b => Pulls net.remote? a b
  | .toConsumers, a, b => Pulls net.remote? b a
  | .all, a, b => net.Linked a b

def sides : Direction → Edge → List StageId
  | .toSuppliers, e => [e.plug.stage]
  | .toConsumers, e => [e.socket.stage]
  | .all, e => [e.plug.stage, e.socket.stage]

def notedAt : Direction → Edge → StageId
  | .toSuppliers, e | .all, e => e.plug.stage
  | .toConsumers, e => e.socket.stage

lemma mem_next (h : net.Consistent) : b ∈ net.next a d ↔ net.Joined d a b := by
  cases d with
  | toSuppliers => exact mem_suppliers h
  | toConsumers => exact mem_consumers h
  | all => exact mem_next_all h

lemma next_rel (h : net.Consistent) (d : Direction) :
    (fun a b => b ∈ net.next a d) = net.Joined d := by
  funext a b
  exact propext (mem_next h)

lemma Consistent.lives_joined (h : net.Consistent) (hj : net.Joined d a b) : b ∈ net.ids := by
  cases d with
  | toSuppliers => exact (h.lives_pulls hj).2
  | toConsumers => exact (h.lives_pulls hj).1
  | all => exact hj.elim (fun hp => (h.lives_pulls hp).2) fun hp => (h.lives_pulls hp).1

lemma next_closed (h : net.Consistent) (d : Direction) (a b : StageId) (hb : b ∈ net.next a d) :
    b ∈ net.ids := h.lives_joined ((mem_next h).1 hb)

lemma mem_walk (h : net.Consistent) :
    b ∈ (net.walk d start).nodes ↔ ReflTransGen (net.Joined d) start b := by
  rw [← next_rel h]
  exact mem_search (next_closed h d)

lemma head?_walk (d : Direction) : (net.walk d start).nodes.head? = some start := by
  rw [walk]
  dsimp only
  rw [search, reach]
  rfl

lemma pairwise_walk (h : net.Consistent) (d : Direction) :
    (net.walk d start).nodes.Pairwise fun a b => ∃ m n, m ≤ n ∧
      AtDistance (net.Joined d) m start a ∧ AtDistance (net.Joined d) n start b := by
  rw [← next_rel h]
  exact pairwise_search (next_closed h d)

lemma nodup_plugs (s : Stage) : s.plugs.Nodup :=
  List.nodup_range.map fun _ _ h => (Contact.mk.inj h).2

lemma nodup_sockets (s : Stage) : s.sockets.Nodup :=
  List.nodup_range.map fun _ _ h => (Contact.mk.inj h).2

lemma nodup_edgesInto (net : Network) (a : StageId) : (net.edgesInto a).Nodup := by
  rw [edgesInto]
  split
  · refine (nodup_plugs _).filterMap fun p q e hp hq => ?_
    obtain ⟨_, -, rfl⟩ := Option.map_eq_some_iff.1 hp
    obtain ⟨_, -, he⟩ := Option.map_eq_some_iff.1 hq
    exact ((Edge.mk.inj he).1).symm
  · exact List.nodup_nil

lemma nodup_edgesFrom (h : net.Consistent) (a : StageId) : (net.edgesFrom a).Nodup := by
  rw [edgesFrom]
  split
  · refine List.nodup_flatMap.2 ⟨fun q _ => ?_, (nodup_sockets _).imp fun {q r} hqr e hq hr => ?_⟩
    · exact (h.once q).map fun _ _ he => (Edge.mk.inj he).1
    · obtain ⟨_, -, rfl⟩ := List.mem_map.1 hq
      obtain ⟨_, -, he⟩ := List.mem_map.1 hr
      exact hqr ((Edge.mk.inj he).2).symm
  · exact List.nodup_nil

lemma nodup_noted (h : net.Consistent) (a : StageId) (d : Direction) : (net.noted a d).Nodup := by
  cases d with
  | toSuppliers => exact nodup_edgesInto net a
  | toConsumers => exact nodup_edgesFrom h a
  | all => exact nodup_edgesInto net a

lemma mem_noted (h : net.Consistent) :
    e ∈ net.noted a d ↔ notedAt d e = a ∧ net.remote? e.plug = some e.socket := by
  cases d with
  | toSuppliers => exact mem_edgesInto h
  | toConsumers => exact mem_edgesFrom h
  | all => exact mem_edgesInto h

lemma nodup_edges_walk (h : net.Consistent) (d : Direction) :
    (net.walk d start).edges.Nodup := by
  refine List.nodup_flatMap.2 ⟨fun a _ => nodup_noted h a d, ?_⟩
  refine (nodup_walk d).imp fun {a b} hab e ha hb => ?_
  exact hab (((mem_noted h).1 ha).1.symm.trans ((mem_noted h).1 hb).1)

lemma mem_edges_walk (h : net.Consistent) : e ∈ (net.walk d start).edges ↔
    net.remote? e.plug = some e.socket ∧ ∃ a ∈ sides d e, a ∈ (net.walk d start).nodes := by
  have hnoted : e ∈ (net.walk d start).edges ↔
      net.remote? e.plug = some e.socket ∧ notedAt d e ∈ (net.walk d start).nodes := by
    rw [walk, List.mem_flatMap]
    constructor
    · rintro ⟨a, ha, he⟩
      obtain ⟨rfl, hs⟩ := (mem_noted h).1 he
      exact ⟨hs, ha⟩
    · rintro ⟨hs, ha⟩
      exact ⟨_, ha, (mem_noted h).2 ⟨rfl, hs⟩⟩
  rw [hnoted]
  refine and_congr_right fun hs => ?_
  cases d with
  | toSuppliers => simp [sides, notedAt]
  | toConsumers => simp [sides, notedAt]
  | all =>
    -- A walk both ways that comes to the socket comes to the plug from there.
    have hback (hm : e.socket.stage ∈ (net.walk .all start).nodes) :
        e.plug.stage ∈ (net.walk .all start).nodes := by
      rw [mem_walk h] at hm ⊢
      exact hm.tail (.inr ⟨e.plug.index, e.socket, hs, rfl⟩)
    simp only [sides, notedAt, List.mem_cons, List.not_mem_nil, or_false, exists_eq_or_imp,
      exists_eq_left]
    exact ⟨.inl, fun hm => hm.elim (fun hp => hp) hback⟩

structure Exact (net : Network) (d : Direction) (start : StageId) (w : Walk) : Prop where
  first : w.nodes.head? = some start
  found : ∀ a, a ∈ w.nodes ↔ ReflTransGen (net.Joined d) start a
  living : ∀ a ∈ w.nodes, a = start ∨ net.lives a = true
  nodup : w.nodes.Nodup
  ordered : w.nodes.Pairwise fun a b => ∃ m n, m ≤ n ∧
    AtDistance (net.Joined d) m start a ∧ AtDistance (net.Joined d) n start b
  edges : ∀ e, e ∈ w.edges ↔
    net.remote? e.plug = some e.socket ∧ ∃ a ∈ sides d e, a ∈ w.nodes
  once : w.edges.Nodup

lemma Consistent.exact_walk (h : net.Consistent) (d : Direction) (start : StageId) :
    net.Exact d start (net.walk d start) where
  first := head?_walk d
  found _ := mem_walk h
  living a ha := by
    rcases ReflTransGen.cases_tail ((mem_walk h).1 ha) with rfl | ⟨b, -, hb⟩
    · exact .inl rfl
    · exact .inr (lives_iff.2 (h.lives_joined hb))
  nodup := nodup_walk d
  ordered := pairwise_walk h d
  edges _ := mem_edges_walk h
  once := nodup_edges_walk h d

lemma Consistent.walk_dual (h : net.Consistent) :
    b ∈ (net.walk .toSuppliers a).nodes ↔ a ∈ (net.walk .toConsumers b).nodes := by
  rw [mem_walk h, mem_walk h]
  exact reflTransGen_swap.symm

lemma Consistent.walk_linked_iff (h : net.Consistent) : ReflTransGen net.Linked a b ↔
    (∀ id, id ∈ (net.walk .all a).nodes ↔ id ∈ (net.walk .all b).nodes) ∧
      ∀ e, e ∈ (net.walk .all a).edges ↔ e ∈ (net.walk .all b).edges := by
  constructor
  · intro hab
    have hnodes (id : StageId) :
        id ∈ (net.walk .all a).nodes ↔ id ∈ (net.walk .all b).nodes := by
      rw [mem_walk_all h, mem_walk_all h]
      exact ⟨(path_symm hab).trans, hab.trans⟩
    refine ⟨hnodes, fun e => ?_⟩
    rw [mem_edges_walk h, mem_edges_walk h]
    simp only [hnodes]
  · rintro ⟨hnodes, -⟩
    rw [← mem_walk_all h, hnodes, mem_walk_all h]

/-- In every state a walk in any direction is exact. What leads up to a stage is what it leads down
to, and walks both ways find the same from stages that are linked, and only from these. -/
theorem walk_run (edits : List Edit) :
    let net := run edits
    (∀ d start, net.Exact d start (net.walk d start)) ∧
      (∀ a b, b ∈ (net.walk .toSuppliers a).nodes ↔ a ∈ (net.walk .toConsumers b).nodes) ∧
      ∀ a b, ReflTransGen net.Linked a b ↔
        (∀ id, id ∈ (net.walk .all a).nodes ↔ id ∈ (net.walk .all b).nodes) ∧
          ∀ e, e ∈ (net.walk .all a).edges ↔ e ∈ (net.walk .all b).edges := by
  have h := consistent_run edits
  exact ⟨h.exact_walk, fun _ _ => h.walk_dual, fun _ _ => h.walk_linked_iff⟩

end Network

end ColourPipeline
