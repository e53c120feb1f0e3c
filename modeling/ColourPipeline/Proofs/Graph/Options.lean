import ColourPipeline.Policy.Correction
import ColourPipeline.Proofs.Graph.Consistent

namespace ColourPipeline

open Policy

namespace Network

variable {net : Network} {id : StageId} {o : OptionSet}

lemma ids_setOptions : (net.setOptions id o).ids = net.ids :=
  ids_update (f := fun s => { s with options := o }) (fun _ => ⟨rfl, rfl⟩) id

lemma find?_setOptions (j : StageId) : (net.setOptions id o).find? j =
    (net.find? j).map fun s => if s.id = id then { s with options := o } else s :=
  find?_update (f := fun s => { s with options := o }) (fun _ => ⟨rfl, rfl⟩) id j

lemma setOptions_setOptions (o' : OptionSet) :
    (net.setOptions id o).setOptions id o' = net.setOptions id o' := by
  unfold setOptions update
  dsimp only
  rw [List.map_map]
  congr 1
  apply List.map_congr_left
  intro s _
  by_cases h : s.id = id <;> simp [h]

lemma rel_find?_setOptions (net : Network) (id : StageId) (o : OptionSet) (j : StageId) :
    Option.Rel (fun s t : Stage => ∃ o', t = { s with options := o' })
      (net.find? j) ((net.setOptions id o).find? j) := by
  rw [find?_setOptions]
  cases net.find? j with
  | none => exact .none
  | some s =>
    refine .some ?_
    by_cases h : s.id = id
    · exact ⟨o, if_pos h⟩
    · exact ⟨s.options, if_neg h⟩

lemma edgesInto_setOptions (j : StageId) :
    (net.setOptions id o).edgesInto j = net.edgesInto j := by
  have h := rel_find?_setOptions net id o j
  simp only [edgesInto]
  generalize net.find? j = s at h ⊢
  generalize (net.setOptions id o).find? j = t at h ⊢
  cases h with
  | none => rfl
  | some h =>
    obtain ⟨o', rfl⟩ := h
    rfl

lemma plug_setOptions (p : Contact) : (net.setOptions id o).plug p = net.plug p := by
  have h := rel_find?_setOptions net id o p.stage
  simp only [Network.plug, Network.stage]
  generalize net.find? p.stage = s at h ⊢
  generalize (net.setOptions id o).find? p.stage = t at h ⊢
  cases h with
  | none => rfl
  | some h =>
    obtain ⟨o', rfl⟩ := h
    rfl

lemma socket_setOptions (p : Contact) : (net.setOptions id o).socket p = net.socket p := by
  have h := rel_find?_setOptions net id o p.stage
  simp only [Network.socket, Network.stage]
  generalize net.find? p.stage = s at h ⊢
  generalize (net.setOptions id o).find? p.stage = t at h ⊢
  cases h with
  | none => rfl
  | some h =>
    obtain ⟨o', rfl⟩ := h
    rfl

lemma isMatch_setOptions (pattern : String) :
    (net.setOptions id o).isMatch pattern = net.isMatch pattern := by
  funext j
  unfold isMatch
  have h := rel_find?_setOptions net id o j
  generalize net.find? j = s at h ⊢
  generalize (net.setOptions id o).find? j = t at h ⊢
  cases h with
  | none => rfl
  | some h =>
    obtain ⟨o', rfl⟩ := h
    rw [Option.any_some, Option.any_some]
    rfl

end Network

namespace Policy

variable {net : Network} {id : StageId} {o : OptionSet}

lemma carriers_setOptions (category : String) :
    carriers (net.setOptions id o) category = carriers net category := by
  funext j
  unfold carriers carries
  simp only [Network.edgesInto_setOptions, Network.plug_setOptions, Network.socket_setOptions]

lemma governed?_setOptions (scope : Scope) (c : Conversion) :
    governed? (net.setOptions id o) scope c = governed? net scope c := by
  unfold governed? nearest?
  simp only [carriers_setOptions, Network.isMatch_setOptions, Network.ids_setOptions]

end Policy

end ColourPipeline
