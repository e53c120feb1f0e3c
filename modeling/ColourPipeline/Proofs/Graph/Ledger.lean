import ColourPipeline.Proofs.Graph.Tidy

namespace ColourPipeline

open Relation

/-- A network and who has handles on its stages: callers, on a stage or on one of its ports, and
conversions. -/
structure Ledger where
  network : Network := .empty
  callers : List StageId := []
  conversions : List Conversion := []

inductive Deed where
  | create (q : Provider)
  | take (id : StageId)
  | drop (id : StageId)
  | connect (plug socket : Contact)
  | disconnect (plug : Contact)
  | setOptions (id : StageId) (o : OptionSet)
  | setImage (socket : Contact) (i : Image)
  | convert (input output : Option StageId)
  | setInput (i : ℕ) (id : StageId)
  | setOutput (i : ℕ) (id : StageId)
  | release (i : ℕ)

namespace Ledger

variable {l : Ledger} {c : Conversion} {i : ℕ}

def edit (l : Ledger) (e : Edit) : Ledger := { l with network := l.network.edit e }

def step (l : Ledger) : Deed → Ledger
  | .create q =>
    match q.filter with
    | .ok _ => { l.edit (.create q) with callers := l.network.created :: l.callers }
    | .error _ => l
  | .take id =>
    if id ∈ l.network.ids then { l.edit (.hold id) with callers := id :: l.callers } else l
  | .drop id =>
    if id ∈ l.callers then { l.edit (.drop id) with callers := l.callers.erase id } else l
  | .connect plug socket => l.edit (.connect plug socket)
  | .disconnect plug => l.edit (.disconnect plug)
  | .setOptions id o => l.edit (.setOptions id o)
  | .setImage socket i => l.edit (.setImage socket i)
  | .convert input output =>
    let (c, _) := Conversion.between input output l.network
    if ∀ id ∈ c.ends, id ∈ l.network.ids then
      { l.edit (.convert input output) with conversions := l.conversions ++ [c] }
    else l
  | .setInput i id =>
    match l.conversions[i]? with
    | some c =>
      if id ∈ l.network.ids then
        { l.edit (.setInput c id) with
          conversions := l.conversions.set i (c.setInput id l.network).1 }
      else l
    | none => l
  | .setOutput i id =>
    match l.conversions[i]? with
    | some c =>
      if id ∈ l.network.ids then
        { l.edit (.setOutput c id) with
          conversions := l.conversions.set i (c.setOutput id l.network).1 }
      else l
    | none => l
  | .release i =>
    match l.conversions[i]? with
    | some c => { l.edit (.release c) with conversions := l.conversions.set i .afterRelease }
    | none => l

def run (deeds : List Deed) : Ledger := deeds.foldl step {}

def others (l : Ledger) (i : ℕ) : List StageId :=
  l.callers ++ (l.conversions.eraseIdx i).flatMap Conversion.ends

structure Balanced (l : Ledger) : Prop where
  tidy : l.network.Tidy []
  handles : ∀ id, l.network.handles id =
    l.callers.count id + (l.conversions.flatMap Conversion.ends).count id

lemma Balanced.handles_eq (h : l.Balanced) (hc : l.conversions[i]? = some c) (id : StageId) :
    l.network.handles id = (l.others i).count id + c.ends.count id := by
  obtain ⟨hi, rfl⟩ := List.getElem?_eq_some_iff.1 hc
  have hp := ((List.getElem_cons_eraseIdx_perm hi).flatMap_right Conversion.ends).count_eq id
  rw [List.flatMap_cons, List.count_append] at hp
  rw [h.handles, others, List.count_append, ← hp]
  omega

lemma balanced_set {net : Network} {c' : Conversion} (ht : net.Tidy [])
    (hc : l.conversions[i]? = some c)
    (hh : ∀ id, net.handles id = (l.others i).count id + c'.ends.count id) :
    Balanced ⟨net, l.callers, l.conversions.set i c'⟩ where
  tidy := ht
  handles id := by
    obtain ⟨hi, -⟩ := List.getElem?_eq_some_iff.1 hc
    have hp := ((List.set_perm_cons_eraseIdx hi c').flatMap_right Conversion.ends).count_eq id
    rw [List.flatMap_cons, List.count_append] at hp
    dsimp only
    rw [hh, others, List.count_append, hp]
    omega

lemma count_cons (x y : StageId) (xs : List StageId) :
    (x :: xs).count y = [x].count y + xs.count y := by
  rw [← List.count_append, List.singleton_append]

lemma Balanced.edit (h : l.Balanced) {e : Edit}
    (he : ∀ id, (l.network.edit e).handles id = l.network.handles id) : (l.edit e).Balanced where
  tidy := h.tidy.edit e
  handles id := (he id).trans (h.handles id)

lemma Balanced.create (h : l.Balanced) (q : Provider) : (l.step (.create q)).Balanced := by
  rw [step]
  split
  · rename_i f hf
    refine ⟨h.tidy.edit (.create q), fun id => ?_⟩
    show (l.network.edit (.create q)).handles id = _
    rw [Network.edit_create hf, Network.handles_create h.tidy.consistent, h.handles,
      count_cons l.network.created id l.callers]
    dsimp only [Ledger.edit]
    omega
  · exact h

lemma Balanced.take (h : l.Balanced) (id : StageId) : (l.step (.take id)).Balanced := by
  rw [step]
  split
  · rename_i hid
    refine ⟨h.tidy.hold id, fun j => ?_⟩
    show (l.network.hold id).handles j = _
    rw [Network.handles_hold hid, h.handles, count_cons id j l.callers]
    dsimp only [Ledger.edit]
    omega
  · exact h

lemma Balanced.drop (h : l.Balanced) (id : StageId) : (l.step (.drop id)).Balanced := by
  rw [step]
  split
  · rename_i hid
    refine ⟨h.tidy.drop id, fun j => ?_⟩
    have hp := (List.perm_cons_erase hid).count_eq j
    rw [count_cons] at hp
    show (l.network.drop id).2.handles j = _
    rw [Network.handles_drop h.tidy.consistent, h.handles]
    dsimp only [Ledger.edit]
    omega
  · exact h

lemma Balanced.convert (h : l.Balanced) (input output : Option StageId) :
    (l.step (.convert input output)).Balanced := by
  rw [step]
  dsimp only [Conversion.between]
  split
  · rename_i hends
    refine ⟨h.tidy.holdAll _, fun j => ?_⟩
    show (List.foldl Network.hold l.network _).handles j = _
    rw [Network.handles_holdAll hends, h.handles, List.flatMap_append, List.count_append,
      List.flatMap_singleton]
    dsimp only [Ledger.edit]
    omega
  · exact h

lemma Balanced.exchange {id : StageId} {old : List StageId} {c' : Conversion} (h : l.Balanced)
    (hc : l.conversions[i]? = some c) (hid : id ∈ l.network.ids)
    (he : ∀ j, old.count j + c'.ends.count j = [id].count j + c.ends.count j) :
    Balanced ⟨((l.network.hold id).dropAll old).2, l.callers, l.conversions.set i c'⟩ := by
  refine balanced_set ((h.tidy.hold id).dropAll old) hc fun j => ?_
  have he := he j
  rw [Network.handles_dropAll (h.tidy.consistent.hold id), Network.handles_hold hid,
    h.handles_eq hc]
  omega

lemma Balanced.setInput (h : l.Balanced) (i : ℕ) (id : StageId) :
    (l.step (.setInput i id)).Balanced := by
  rw [step]
  split
  · rename_i c hc
    split
    · rename_i hid
      refine h.exchange hc hid fun j => ?_
      simp only [Conversion.setInput, Conversion.ends, Option.toList_some, List.count_append]
      omega
    · exact h
  · exact h

lemma Balanced.setOutput (h : l.Balanced) (i : ℕ) (id : StageId) :
    (l.step (.setOutput i id)).Balanced := by
  rw [step]
  split
  · rename_i c hc
    split
    · rename_i hid
      refine h.exchange hc hid fun j => ?_
      simp only [Conversion.setOutput, Conversion.ends, Option.toList_some, List.count_append]
      omega
    · exact h
  · exact h

lemma release_eq (c : Conversion) (net : Network) : (c.release net).2 = net.dropAll c.ends := by
  obtain ⟨input, output, released⟩ := c
  cases input <;> cases output <;> rfl

lemma Balanced.release (h : l.Balanced) (i : ℕ) : (l.step (.release i)).Balanced := by
  rw [step]
  split
  · rename_i c hc
    refine balanced_set (h.tidy.edit (.release c)) hc fun j => ?_
    show (c.release l.network).2.2.handles j = (l.others i).count j
    rw [release_eq, Network.handles_dropAll h.tidy.consistent, h.handles_eq hc,
      Nat.add_sub_cancel]
  · exact h

lemma Balanced.step (h : l.Balanced) (d : Deed) : (l.step d).Balanced := by
  have hc := h.tidy.consistent
  cases d with
  | create q => exact h.create q
  | take id => exact h.take id
  | drop id => exact h.drop id
  | connect plug socket => exact h.edit (Network.handles_connect hc plug socket)
  | disconnect plug => exact h.edit (Network.handles_disconnect hc plug)
  | setOptions id o => exact h.edit (Network.handles_setOptions id o)
  | setImage socket i => exact h.edit (Network.handles_setImage socket i)
  | convert input output => exact h.convert input output
  | setInput i id => exact h.setInput i id
  | setOutput i id => exact h.setOutput i id
  | release i => exact h.release i

theorem balanced_run (deeds : List Deed) : (run deeds).Balanced := by
  induction deeds using List.reverseRecOn with
  | nil => exact ⟨Network.tidy_empty, fun _ => rfl⟩
  | append_singleton deeds d ih =>
    rw [run, List.foldl_append]
    exact ih.step d

end Ledger

end ColourPipeline
