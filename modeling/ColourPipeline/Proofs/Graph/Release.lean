import ColourPipeline.Proofs.Graph.Ledger

/-! A release walks from one end of a conversion, and gives back its handles on both. -/

namespace ColourPipeline

open Relation
open scoped Classical

namespace Network

variable {net : Network} {start id : StageId}

def Linked (net : Network) (a b : StageId) : Prop := Pulls net.remote? a b ∨ Pulls net.remote? b a

lemma path_symm {a b : StageId} (h : ReflTransGen net.Linked a b) :
    ReflTransGen net.Linked b a := by
  have : Std.Symm net.Linked := ⟨fun _ _ => Or.symm⟩
  exact ReflTransGen.stdSymm.symm a b h

lemma path_of_pulls {a b : StageId} (h : ReflTransGen (Pulls net.remote?) a b) :
    ReflTransGen net.Linked a b :=
  ReflTransGen.mono (fun _ _ => Or.inl) _ _ h

lemma mem_next_all (h : net.Consistent) {a b : StageId} : b ∈ net.next a .all ↔ net.Linked a b := by
  rw [next, List.mem_append, mem_suppliers h, mem_consumers h, Linked]

lemma mem_walk_all (h : net.Consistent) :
    id ∈ (net.walk .all start).nodes ↔ ReflTransGen net.Linked start id := by
  have hr : (fun a b => b ∈ net.next a .all) = net.Linked := by
    funext a b
    exact propext (mem_next_all h)
  rw [← hr]
  refine mem_search fun a b hb => ?_
  exact ((mem_next_all h).1 hb).elim (fun hp => (h.lives_pulls hp).2) fun hp => (h.lives_pulls hp).1

lemma nodup_walk (d : Direction) : (net.walk d start).nodes.Nodup := nodup_search net.ids start

lemma linked_eq (h : net.Consistent) : {id | ReflTransGen net.Linked start id} =
    ((net.walk .all start).nodes.toFinset : Set StageId) := by
  ext id
  rw [Set.mem_ofPred_eq, Finset.mem_coe, List.mem_toFinset, mem_walk_all h]

lemma ncard_linked (h : net.Consistent) :
    {id | ReflTransGen net.Linked start id}.ncard = (net.walk .all start).nodes.length := by
  rw [linked_eq h, Set.ncard_coe_finset, List.toFinset_card_of_nodup (nodup_walk .all)]

lemma finite_linked (h : net.Consistent) (ids : List StageId) :
    {id | ∃ e ∈ ids, ReflTransGen net.Linked e id}.Finite := by
  have he (e : StageId) : {id | ReflTransGen net.Linked e id}.Finite := by
    rw [linked_eq h]
    exact Finset.finite_toSet _
  exact ((List.finite_toSet ids).biUnion fun e _ => he e).subset
    fun id ⟨e, hm, hp⟩ => Set.mem_biUnion hm hp

end Network

namespace Conversion

variable {c : Conversion} {net : Network} {start : StageId}

lemma exists_start (h : c.state = .built) : ∃ start, c.start? = some start := by
  obtain ⟨input, output, released⟩ := c
  cases input with
  | some id => exact ⟨id, rfl⟩
  | none =>
    cases output with
    | some id => exact ⟨id, rfl⟩
    | none => cases released <;> cases h

lemma mem_ends_of_start (h : c.start? = some start) : start ∈ c.ends := by
  obtain ⟨input, output, released⟩ := c
  cases input <;> cases output <;> simp_all [start?, ends]

lemma ends_of_start_eq_none (h : c.start? = none) : c.ends = [] := by
  obtain ⟨input, output, released⟩ := c
  cases input <;> cases output <;> simp_all [start?, ends]

lemma release_of_start (h : c.start? = some start) :
    c.release net = (report (net.walk .all start) (net.dropAll c.ends).2, net.dropAll c.ends) := by
  rw [release, walk?, h]
  rfl

lemma release_of_no_start (h : c.start? = none) (net : Network) :
    c.release net = ({}, [], net) := by
  rw [release, walk?, h]
  rfl

end Conversion

namespace Ledger

variable {l : Ledger} {c : Conversion} {i : ℕ} {start id : StageId}

def Kept (l : Ledger) (i : ℕ) (id : StageId) : Prop :=
  ∃ j ∈ l.others i, ReflTransGen (Pulls l.network.remote?) j id

theorem Balanced.lives_release (h : l.Balanced) (hc : l.conversions[i]? = some c) :
    id ∈ (c.release l.network).2.2.ids ↔ l.Kept i id := by
  rw [release_eq, Network.lives_dropAll h.tidy]
  refine exists_congr fun j => and_congr_left fun _ => ?_
  rw [h.handles_eq hc, Nat.lt_add_left_iff_pos, List.count_pos_iff]

structure Releases (l : Ledger) (i : ℕ) (c : Conversion) (start : StageId) : Prop where
  visited : (c.release l.network).1.visited = {id | ReflTransGen l.network.Linked start id}.ncard
  nodup : (l.network.walk .all start).nodes.Nodup
  found : ∀ id,
    id ∈ (l.network.walk .all start).nodes ↔ ReflTransGen l.network.Linked start id
  released : (c.release l.network).1.released =
    (l.network.walk .all start).nodes.filter fun id => ¬ l.Kept i id
  retained : (c.release l.network).1.retained =
    (l.network.walk .all start).nodes.filter fun id => l.Kept i id
  lives : ∀ id, id ∈ (l.step (.release i)).network.ids ↔ l.Kept i id
  plugs : ∀ id ∈ (c.release l.network).1.retained, ∀ k,
    (l.step (.release i)).network.remote? ⟨id, k⟩ = l.network.remote? ⟨id, k⟩
  sockets : ∀ id ∈ (c.release l.network).1.released, ∀ k s,
    ⟨id, k⟩ ∉ (l.step (.release i)).network.attached s
  again : ∃ d, (l.step (.release i)).conversions[i]? = some d ∧
    d.release (l.step (.release i)).network = ({}, [], (l.step (.release i)).network) ∧
    (l.step (.release i)).step (.release i) = l.step (.release i)

lemma step_release (hc : l.conversions[i]? = some c) : l.step (.release i) =
    { l with
      network := (c.release l.network).2.2
      conversions := l.conversions.set i .afterRelease } := by
  rw [step, hc]
  rfl

lemma release_again (hc : l.conversions[i]? = some c) :
    (l.step (.release i)).conversions[i]? = some .afterRelease ∧
      (l.step (.release i)).step (.release i) = l.step (.release i) := by
  obtain ⟨hi, -⟩ := List.getElem?_eq_some_iff.1 hc
  have hs : (l.step (.release i)).conversions[i]? = some .afterRelease := by
    rw [step_release hc]
    simp [hi]
  refine ⟨hs, ?_⟩
  rw [step_release hs, step_release hc]
  dsimp only
  rw [List.set_set]
  rfl

lemma Balanced.releases (h : l.Balanced) (hc : l.conversions[i]? = some c)
    (hs : c.start? = some start) : l.Releases i c start := by
  have hcons := h.tidy.consistent
  have hlives (id : StageId) : id ∈ (l.network.dropAll c.ends).2.ids ↔ l.Kept i id := by
    rw [← h.lives_release hc, release_eq]
  have hnet : (l.step (.release i)).network = (l.network.dropAll c.ends).2 := by
    rw [step_release hc, release_eq]
  have hretained : (c.release l.network).1.retained =
      (l.network.walk .all start).nodes.filter fun id => l.Kept i id := by
    rw [Conversion.release_of_start hs, Conversion.report]
    exact List.filter_congr fun id _ => by simp [hlives]
  have hreleased : (c.release l.network).1.released =
      (l.network.walk .all start).nodes.filter fun id => ¬ l.Kept i id := by
    rw [Conversion.release_of_start hs, Conversion.report]
    exact List.filter_congr fun id _ => by simp [hlives]
  obtain ⟨hagain, hstep⟩ := release_again hc
  refine ⟨?_, Network.nodup_walk .all, fun id => Network.mem_walk_all hcons, hreleased, hretained,
    ?_, ?_, ?_, .afterRelease, hagain, rfl, hstep⟩
  · rw [Network.ncard_linked hcons, Conversion.release_of_start hs]
    rfl
  · intro id
    rw [hnet, hlives]
  · intro id hid k
    rw [hretained, List.mem_filter, decide_eq_true_iff] at hid
    rw [hnet]
    exact (Network.pruned_dropAll hcons c.ends).remote ⟨id, k⟩ ((hlives id).2 hid.2)
  · intro id hid k s hs
    rw [hreleased, List.mem_filter, decide_eq_true_iff] at hid
    rw [hnet] at hs
    have hcons' := (h.tidy.dropAll c.ends).consistent
    exact hid.2 ((hlives id).1 (hcons'.valid _ s ((hcons'.paired _ s).2 hs)).1.lives)

/-- In whatever way callers come to a built conversion: a release counts what its start is linked
with, frees of it what no other holder leads up to, leaves the rest as it was, and is done once. -/
theorem release_run (deeds : List Deed) (i : ℕ) (c : Conversion)
    (hc : (run deeds).conversions[i]? = some c) (hb : c.state = .built) :
    ∃ start, c.start? = some start ∧ (run deeds).Releases i c start := by
  obtain ⟨start, hs⟩ := Conversion.exists_start hb
  exact ⟨start, hs, (balanced_run deeds).releases hc hs⟩

def heldImage : List Deed :=
  [.create ⟨0, .parse "image.root", ⟨0, 1, 0⟩, .filter .imageRoot⟩,
    .create ⟨1, .parse "icc.transform", ⟨0, 1, 0⟩, .filter .gain⟩,
    .convert (some 0) (some 1), .connect ⟨1, 0⟩ ⟨0, 0⟩, .drop 1]

theorem release_run_image :
    0 ∈ ((⟨some 0, some 1, false⟩ : Conversion).release (run heldImage).network).1.retained := by
  obtain ⟨start, hs, h⟩ := release_run heldImage 0 ⟨some 0, some 1, false⟩ rfl rfl
  obtain rfl : 0 = start := Option.some.inj hs
  rw [h.retained, List.mem_filter, h.found, decide_eq_true_iff]
  exact ⟨.refl, 0, List.mem_cons_self, .refl⟩

structure Complete (c : Conversion) (net : Network) : Prop where
  released : ∀ id ∈ net.ids, id ∉ (c.release net).2.2.ids → id ∈ (c.release net).1.released
  visited : (c.release net).1.visited =
    {id | ∃ e ∈ c.ends, ReflTransGen net.Linked e id}.ncard

lemma Balanced.linked_of_complete (h : l.Balanced) (hr : l.Releases i c start)
    (hs : start ∈ c.ends) (hcomplete : Complete c l.network) :
    ∀ e ∈ c.ends, ReflTransGen l.network.Linked start e := by
  have hsub : {id | ReflTransGen l.network.Linked start id} ⊆
      {id | ∃ e ∈ c.ends, ReflTransGen l.network.Linked e id} := fun id hid => ⟨start, hs, hid⟩
  have heq := Set.eq_of_subset_of_ncard_le hsub (hcomplete.visited.symm.trans hr.visited).le
    (Network.finite_linked h.tidy.consistent c.ends)
  exact fun e he => heq.superset ⟨e, he, .refl⟩

lemma Balanced.mem_released (h : l.Balanced) (hr : l.Releases i c start)
    (hc : l.conversions[i]? = some c)
    (hl : ∀ e ∈ c.ends, ReflTransGen l.network.Linked start e) (hid : id ∈ l.network.ids)
    (hf : ¬ l.Kept i id) : id ∈ (c.release l.network).1.released := by
  obtain ⟨j, hj, hp⟩ := h.tidy.lives_iff.1 hid
  have hends : j ∈ c.ends := by
    rw [h.handles_eq hc, Nat.add_pos_iff_pos_or_pos, List.count_pos_iff, List.count_pos_iff] at hj
    exact hj.resolve_left fun ho => hf ⟨j, ho, hp⟩
  rw [hr.released, List.mem_filter, hr.found, decide_eq_true_iff]
  exact ⟨(hl j hends).trans (Network.path_of_pulls hp), hf⟩

lemma Balanced.complete (h : l.Balanced) (hr : l.Releases i c start)
    (hc : l.conversions[i]? = some c) (hs : start ∈ c.ends)
    (hl : ∀ e ∈ c.ends, ReflTransGen l.network.Linked start e) : Complete c l.network where
  released id hid hn := by
    rw [h.lives_release hc] at hn
    exact h.mem_released hr hc hl hid hn
  visited := by
    rw [hr.visited]
    congr 1
    ext id
    exact ⟨fun hp => ⟨start, hs, hp⟩, fun ⟨e, he, hp⟩ => (hl e he).trans hp⟩

lemma complete_of_no_start {net : Network} (hs : c.start? = none) : Complete c net where
  released id hid hn := by
    rw [Conversion.release_of_no_start hs] at hn
    exact absurd hid hn
  visited := by simp [Conversion.release_of_no_start hs, Conversion.ends_of_start_eq_none hs]

/-- The walk of a release starts from one of the ends: its report is complete exactly if the other
end is linked with that. -/
theorem complete_run_iff (deeds : List Deed) (i : ℕ) (c : Conversion)
    (hc : (run deeds).conversions[i]? = some c) : Complete c (run deeds).network ↔
      ∀ a ∈ c.ends, ∀ b ∈ c.ends, ReflTransGen (run deeds).network.Linked a b := by
  have h := balanced_run deeds
  cases hs : c.start? with
  | none => simp [complete_of_no_start hs, Conversion.ends_of_start_eq_none hs]
  | some start =>
    have hr := h.releases hc hs
    have hstart := Conversion.mem_ends_of_start hs
    constructor
    · intro hcomplete a ha b hb
      have hl := h.linked_of_complete hr hstart hcomplete
      exact (Network.path_symm (hl a ha)).trans (hl b hb)
    · exact fun hl => h.complete hr hc hstart (hl start hstart)

def endsApart : List Deed :=
  [.create ⟨0, .parse "image.root", ⟨0, 1, 0⟩, .filter .imageRoot⟩,
    .create ⟨1, .parse "image.output", ⟨0, 1, 0⟩, .filter .imageOutput⟩,
    .convert (some 0) (some 1), .drop 1]

theorem complete_run_iff_apart : ¬ Complete ⟨some 0, some 1, false⟩ (run endsApart).network := by
  rw [complete_run_iff endsApart 0 _ rfl]
  intro h
  have hpath := h 0 (by decide) 1 (by decide)
  have hpruned : (run (endsApart.take 3)).network.Pruned (run endsApart).network :=
    Network.pruned_drop (balanced_run (endsApart.take 3)).tidy.consistent 1
  have hno {a b : StageId} (hp : Pulls (run endsApart).network.remote? a b) : False := by
    obtain ⟨i, s, hs, -⟩ := hpruned.pulls (balanced_run endsApart).tidy.consistent hp
    cases hs
  rcases ReflTransGen.cases_head hpath with he | ⟨b, hb, -⟩
  · cases he
  · exact hb.elim hno hno

end Ledger

end ColourPipeline
