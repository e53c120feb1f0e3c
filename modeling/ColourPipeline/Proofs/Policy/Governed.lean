import ColourPipeline.Policy.Correction
import ColourPipeline.Proofs.Graph.Distance
import ColourPipeline.Proofs.Graph.Run

namespace ColourPipeline.Policy

open Relation

variable {net : Network} {category : String}

def InCategory (net : Network) (category : String) (plug socket : Contact) : Prop :=
  ∃ p s, net.plug plug = .ok p ∧ net.socket socket = .ok s ∧
    selects category p.category = true ∧ selects category s.category = true

/-- A plug of the first stage pulls from the second one, by a connection of the category. -/
def Kept (net : Network) (category : String) (a b : StageId) : Prop :=
  ∃ i s, net.remote? ⟨a, i⟩ = some s ∧ s.stage = b ∧ InCategory net category ⟨a, i⟩ s

lemma carries_iff {plug socket : Contact} :
    carries net category ⟨plug, socket⟩ = true ↔ InCategory net category plug socket := by
  rw [carries, InCategory]
  cases net.plug plug with
  | error e => simp
  | ok p => cases net.socket socket <;> simp [Connector.isCategory]

lemma mem_carriers (h : net.Consistent) {a b : StageId} :
    b ∈ carriers net category a ↔ Kept net category a b := by
  rw [carriers, List.mem_map]
  constructor
  · rintro ⟨⟨⟨_, i⟩, s⟩, he, rfl⟩
    obtain ⟨he, hc⟩ := List.mem_filter.1 he
    obtain ⟨rfl, hs⟩ := (Network.mem_edgesInto h).1 he
    exact ⟨i, s, hs, rfl, carries_iff.1 hc⟩
  · rintro ⟨i, s, hs, rfl, hc⟩
    exact ⟨⟨⟨a, i⟩, s⟩,
      List.mem_filter.2 ⟨(Network.mem_edgesInto h).2 ⟨rfl, hs⟩, carries_iff.2 hc⟩, rfl⟩

lemma carriers_rel (h : net.Consistent) :
    (fun a b => b ∈ carriers net category a) = Kept net category := by
  funext a b
  exact propext (mem_carriers h)

lemma carriers_closed (h : net.Consistent) (a b : StageId) (hb : b ∈ carriers net category a) :
    b ∈ net.ids := by
  obtain ⟨i, s, hs, rfl, -⟩ := (mem_carriers h).1 hb
  exact (h.valid _ s hs).2.lives

lemma carriers_of_all (h : net.Consistent)
    (hc : ∀ p s, net.remote? p = some s → InCategory net category p s) :
    carriers net category = net.suppliers := by
  funext a
  rw [carriers, Network.suppliers, List.filter_eq_self.2]
  intro e he
  exact carries_iff.2 (hc _ _ ((Network.mem_edgesInto h).1 he).2)

variable {scope : Scope} {start : StageId}

lemma nearest?_eq : nearest? net scope start =
    (net.matching scope.pattern
      (search (carriers net scope.category) net.ids start).tail).head? := by
  rw [nearest?, firstFound?_eq, Network.matching, List.head?_filter]

lemma nearest?_eq_none (h : net.Consistent) : nearest? net scope start = none ↔
    ∀ id, id ≠ start → net.isMatch scope.pattern id = true →
      ¬ ReflTransGen (Kept net scope.category) start id := by
  rw [nearest?, firstFound?_eq_none (carriers_closed h), carriers_rel h]

lemma nearest?_eq_some (h : net.Consistent) {id : StageId}
    (hid : nearest? net scope start = some id) :
    id ≠ start ∧ net.isMatch scope.pattern id = true ∧
      ∃ n, Walks (Kept net scope.category) n start id ∧
        ∀ j m, j ≠ start → net.isMatch scope.pattern j = true →
          Walks (Kept net scope.category) m start j → n ≤ m := by
  have hf := hid
  rw [nearest?, firstFound?_eq] at hf
  have hmem := mem_tail_search.1 (List.mem_of_find?_eq_some hf)
  have hreach := (mem_search (carriers_closed h)).1 hmem.2
  rw [carriers_rel h] at hreach
  obtain ⟨k, hk⟩ := exists_walks.2 hreach
  obtain ⟨n, -, hn, hmin⟩ := hk.exists_atDistance
  refine ⟨hmem.1, List.find?_some hf, n, hn, fun j m hj hp hw => ?_⟩
  rw [← carriers_rel h] at hw
  obtain ⟨l, hl, hwl⟩ := firstFound?_nearest (carriers_closed h) hid hj hp hw
  rw [carriers_rel h] at hwl
  by_contra hlt
  exact hmin l (by omega) hwl

/-- In every state the governed stage is the nearest one of those that match, over connections of
the category, and the first of these in breadth-first order. -/
theorem governed?_run (edits : List Edit) (c : Conversion) (scope : Scope) :
    let net := Network.run edits
    let kept := Kept net scope.category
    match c.output.or c.input with
    | none => governed? net scope c = none
    | some start =>
      (governed? net scope c = none ↔
        ∀ id, id ≠ start → net.isMatch scope.pattern id = true → ¬ ReflTransGen kept start id) ∧
      (∀ id, governed? net scope c = some id →
        id ≠ start ∧ net.isMatch scope.pattern id = true ∧
          ∃ n, Walks kept n start id ∧
            ∀ j m, j ≠ start → net.isMatch scope.pattern j = true → Walks kept m start j → n ≤ m) ∧
      governed? net scope c = (net.matching scope.pattern
        (search (carriers net scope.category) net.ids start).tail).head? ∧
      ((∀ p s, net.remote? p = some s → InCategory net scope.category p s) →
        governed? net scope c = (net.matching scope.pattern
          (net.walk .toSuppliers start).nodes.tail).head?) := by
  have h := Network.consistent_run edits
  generalize Network.run edits = net at h
  dsimp only [governed?]
  cases c.output.or c.input with
  | none => rfl
  | some start =>
    rw [Option.bind_some]
    refine ⟨nearest?_eq_none h, fun id => nearest?_eq_some h, nearest?_eq, fun hall => ?_⟩
    rw [nearest?_eq, carriers_of_all h hall]
    rfl

def transformStage (o : OptionSet) : Stage where
  id := 0
  provider := ⟨0, .parse "org/tincture/colour/icc.transform", ⟨0, 1, 0⟩, .filter .gain⟩
  filter := .gain
  options := o
  images := [none]
  handles := 1

def outputStage : Stage where
  id := 1
  provider := ⟨1, .parse "org/tincture/colour/image.output", ⟨0, 1, 0⟩, .filter .imageOutput⟩
  filter := .imageOutput
  options := .empty
  images := []
  handles := 1

def pair (o : OptionSet) : Network where
  stages := [transformStage o, outputStage]
  remotes := [(⟨1, 0⟩, ⟨0, 0⟩)]
  listings := [(⟨0, 0⟩, [⟨1, 0⟩])]
  created := 2

lemma nearest?_pair (o : OptionSet) : nearest? (pair o) {} 1 = some 0 := by
  have hc : carriers (pair o) dataCategory 1 = [0] := rfl
  have hm : (pair o).isMatch stagePattern 0 = true := by
    have hs : (pair o).find? 0 = some (transformStage o) := rfl
    rw [Network.isMatch, hs, Option.any_some]
    have hp : (Path.parse stagePattern).selects (.parse "org/tincture/colour/icc.transform") =
      true := by decide +kernel
    exact hp
  have hf : found (carriers (pair o) dataCategory) [0] 1 = [0] := by
    rw [found, hc]
    rfl
  show seek (carriers (pair o) dataCategory) ((pair o).isMatch stagePattern) [0] [1] = some 0
  rw [seek, hf, List.find?_cons_of_pos hm]

def paired : List Edit :=
  [.create (transformStage .empty).provider, .create outputStage.provider,
    .connect ⟨1, 0⟩ ⟨0, 0⟩]

lemma run_paired : Network.run paired = pair Filter.gain.defaults := by
  have hc : (Connector.data "image").checkCompatible (.data "out") = .ok () := by decide
  have hconnect : Network.connect ⟨1, 0⟩ ⟨0, 0⟩
      ⟨[transformStage Filter.gain.defaults, outputStage], [], [], 2⟩ =
        .ok [] (pair Filter.gain.defaults) := by
    rw [Network.connect_of_compatible rfl rfl hc, if_neg]
    · rfl
    · simp [Network.closesCycle, Network.walk, search, Network.ids, transformStage, outputStage,
        reach, found, Network.next, Network.suppliers, Network.edgesInto, Network.find?,
        Stage.plugs, Filter.gain, Network.remote?]
  show Network.edit ⟨[transformStage Filter.gain.defaults, outputStage], [], [], 2⟩
    (.connect ⟨1, 0⟩ ⟨0, 0⟩) = _
  rw [Network.edit, hconnect]
  rfl

theorem governed?_run_paired : governed? (Network.run paired) {} { output := some 1 } = some 0 ∧
    0 ≠ 1 ∧ (Network.run paired).isMatch stagePattern 0 = true ∧
      ∃ n, Walks (Kept (Network.run paired) dataCategory) n 1 0 := by
  have hf : governed? (Network.run paired) {} { output := some 1 } = some 0 := by
    rw [run_paired]
    exact nearest?_pair _
  obtain ⟨hne, hm, n, hn, -⟩ := (governed?_run paired { output := some 1 } {}).2.1 0 hf
  exact ⟨hf, hne, hm, n, hn⟩

end ColourPipeline.Policy
