import ColourPipeline.Proofs.Pull.Transforms

/-! Who has handles on the slots that gains are drawn from. -/

namespace ColourPipeline

open scoped List

def TransformState.slots (t : TransformState) : List SlotId := t.drawn.map Prod.snd

namespace Pipeline

variable {p : Pipeline} {q : ProviderId} {s : Stage} {id slot : SlotId}

def drawnSlots (p : Pipeline) : List SlotId := p.transforms.flatMap (·.2.slots)

lemma perm_setTransform (p : Pipeline) (q : ProviderId) (t : TransformState) : ∃ others,
    p.drawnSlots.Perm ((p.transform q).slots ++ others) ∧
      (p.setTransform q t).drawnSlots.Perm (t.slots ++ others) := by
  obtain ⟨rest, hput, ht⟩ := Table.exists_perm_put q t p.transforms
  let slots (e : ProviderId × TransformState) := e.2.slots
  refine ⟨rest.flatMap slots, ?_, hput.flatMap_right slots⟩
  refine (ht.flatMap_right slots).trans (.of_eq ?_)
  rw [List.flatMap_append, transform]
  cases p.transforms.lookup q with
  | none => rfl
  | some t => exact congrArg (· ++ rest.flatMap slots) (List.append_nil t.slots)

lemma perm_drawing (p : Pipeline) (s : Stage) (slot : SlotId) : ∃ kept,
    p.drawnSlots.Perm (((p.transform s.provider.id).drawn.lookup s.id).toList ++ kept) ∧
      (p.setTransform s.provider.id
        ((p.transform s.provider.id).drawing s.id slot)).drawnSlots.Perm (slot :: kept) := by
  obtain ⟨others, hp, hq⟩ :=
    perm_setTransform p s.provider.id ((p.transform s.provider.id).drawing s.id slot)
  obtain ⟨rest, hput, ht⟩ := Table.exists_perm_put s.id slot (p.transform s.provider.id).drawn
  refine ⟨rest.map Prod.snd ++ others, ?_, ?_⟩
  · refine hp.trans ?_
    rw [← List.append_assoc]
    refine List.Perm.append_right others ((ht.map Prod.snd).trans (.of_eq ?_))
    cases (p.transform s.provider.id).drawn.lookup s.id <;> simp
  · exact hq.trans ((hput.map Prod.snd).append_right others)

lemma perm_forget (p : Pipeline) (s : Stage)
    (h : ((p.transform s.provider.id).drawn.map (·.1)).Nodup) :
    p.drawnSlots.Perm (((p.transform s.provider.id).drawn.lookup s.id).toList ++
      (p.setTransform s.provider.id ((p.transform s.provider.id).forget s.id)).drawnSlots) := by
  obtain ⟨others, hp, hq⟩ :=
    perm_setTransform p s.provider.id ((p.transform s.provider.id).forget s.id)
  refine hp.trans (.trans ?_ (hq.symm.append_left _))
  rw [← List.append_assoc]
  refine List.Perm.append_right others ?_
  cases hl : (p.transform s.provider.id).drawn.lookup s.id with
  | none =>
    refine .of_eq ?_
    rw [Option.toList_none, List.nil_append, TransformState.slots, TransformState.slots,
      TransformState.forget, Table.remove_of_lookup hl]
  | some slot => exact (Table.perm_remove h hl).map Prod.snd

lemma mem_drawnSlots (h : (p.transform s.provider.id).drawn.lookup s.id = some slot) :
    slot ∈ p.drawnSlots := by
  obtain ⟨kept, hp, -⟩ := perm_drawing p s slot
  rw [h] at hp
  exact hp.symm.subset List.mem_cons_self

structure Custody (alone : Prop) (callers : List SlotId) (p : Pipeline) : Prop where
  counted : p.cache.Counted (callers ++ p.drawnSlots)
  stored : ∀ id ∈ p.drawnSlots, p.cache.Stored id
  providers : (p.transforms.map (·.1)).Nodup
  once : ∀ q, ((p.transform q).drawn.map (·.1)).Nodup
  only : alone → ∀ id, p.cache.Stored id → id ∈ callers ++ p.drawnSlots

namespace Custody

variable {alone : Prop} {callers : List SlotId}

lemma empty : Custody alone [] {} where
  counted := ObjectCache.counted_empty
  stored _ h := by cases h
  providers := List.nodup_nil
  once _ := List.nodup_nil
  only _ id h := by
    obtain ⟨k, hk, -⟩ := h
    cases hk

lemma mono {alone' : Prop} (h : Custody alone callers p) (ha : alone' → alone) :
    Custody alone' callers p :=
  ⟨h.counted, h.stored, h.providers, h.once, fun ha' => h.only (ha ha')⟩

lemma exists_drawn (h : Custody alone callers p) (hid : id ∈ p.drawnSlots) :
    ∃ q i, (p.transform q).drawn.lookup i = some id := by
  obtain ⟨⟨q, t⟩, ht, hs⟩ := List.mem_flatMap.1 hid
  obtain ⟨⟨i, j⟩, hi, rfl⟩ := List.mem_map.1 hs
  have hq : p.transform q = t := by rw [transform, Table.lookup_of_mem h.providers ht]; rfl
  exact ⟨q, i, Table.lookup_of_mem (h.once q) (hq ▸ hi)⟩

lemma release (h : Custody alone (id :: callers) p) :
    Custody alone callers (p.onCache fun c => (c.release id).2) where
  counted := ObjectCache.Counted.release h.counted
  stored i hi := h.counted.stored_release (List.mem_append_right _ hi) (h.stored i hi)
  providers := h.providers
  once := h.once
  only ha i hi := by
    obtain ⟨hs, hid⟩ := h.counted.stored_of_release hi
    rcases List.mem_cons.1 (h.only ha i hs) with he | hm
    · exact hid he
    · exact hm

lemma drop (h : Custody alone (id :: callers) p) (hid : alone → id ∈ callers ++ p.drawnSlots) :
    Custody alone callers (p.onCache fun c => c.drop id) where
  counted := ObjectCache.Counted.drop h.counted
  stored i hi := by
    obtain ⟨k, hk, hf⟩ := h.stored i hi
    exact ⟨k, by rwa [onCache, ObjectCache.key?_drop], hf⟩
  providers := h.providers
  once := h.once
  only ha i hi := by
    obtain ⟨k, hk, hf⟩ := hi
    rw [onCache, ObjectCache.key?_drop] at hk
    rcases List.mem_cons.1 (h.only ha i ⟨k, hk, hf⟩) with rfl | hm
    · exact hid ha
    · exact hm

lemma lookup (h : Custody alone callers p) (text : String) :
    Custody alone ((p.cache.lookup text).1 :: callers)
      (p.onCache fun c => (c.lookup text).2) where
  counted := h.counted.lookup text
  stored i hi := (h.stored i hi).lookup text
  providers := h.providers
  once := h.once
  only ha i hi := by
    rcases h.counted.stored_of_lookup hi with rfl | hs
    · exact List.mem_cons_self
    · exact List.mem_cons_of_mem _ (h.only ha i hs)

lemma drawing (h : Custody alone (slot :: callers) p) (hs : p.cache.Stored slot) (s : Stage) :
    Custody alone (((p.transform s.provider.id).drawn.lookup s.id).toList ++ callers)
      (p.setTransform s.provider.id
        ((p.transform s.provider.id).drawing s.id slot)) := by
  obtain ⟨kept, hkept, hdrawn⟩ := perm_drawing p s slot
  generalize ((p.transform s.provider.id).drawn.lookup s.id).toList = previous at hkept ⊢
  -- The caller's handle becomes the stage's, and the one the stage had becomes the caller's.
  have hperm : (slot :: callers ++ p.drawnSlots).Perm (previous ++ callers ++
      (p.setTransform s.provider.id
        ((p.transform s.provider.id).drawing s.id slot)).drawnSlots) := by
    calc
      slot :: callers ++ p.drawnSlots
      _ ~ slot :: callers ++ (previous ++ kept) := hkept.append_left _
      _ = slot :: (callers ++ previous ++ kept) :=
        congrArg (slot :: ·) (List.append_assoc callers previous kept).symm
      _ ~ slot :: (previous ++ callers ++ kept) :=
        (List.perm_append_comm.append_right kept).cons slot
      _ ~ previous ++ callers ++ slot :: kept := List.perm_middle.symm
      _ ~ _ := hdrawn.symm.append_left _
  refine ⟨h.counted.perm hperm, fun i hi => ?_, ?_, fun q => ?_, fun ha i hi => ?_⟩
  · rcases List.mem_cons.1 (hdrawn.subset hi) with rfl | hm
    · exact hs
    · exact h.stored i (hkept.symm.subset (List.mem_append_right _ hm))
  · exact Table.nodup_keys_put h.providers _ _
  · rw [transform_setTransform]
    split
    · exact Table.nodup_keys_put (h.once _) _ _
    · exact h.once q
  · exact hperm.subset (h.only ha i hi)

lemma drawFrom (h : Custody alone (slot :: callers) p) (hs : p.cache.Stored slot) (s : Stage) :
    Custody alone callers (p.drawFrom s slot) := by
  have hd := h.drawing hs s
  unfold Pipeline.drawFrom
  dsimp only
  cases hl : (p.transform s.provider.id).drawn.lookup s.id with
  | none =>
    rw [hl] at hd
    exact hd
  | some previous =>
    rw [hl] at hd
    dsimp only
    split
    · rename_i he
      subst he
      obtain ⟨kept, -, hdrawn⟩ := perm_drawing p s previous
      exact hd.drop fun _ => List.mem_append_right _ (hdrawn.symm.subset List.mem_cons_self)
    · exact hd.release

lemma set (h : Custody alone callers p) (id : SlotId) (e : Entity) :
    Custody alone callers (p.onCache fun c => c.set id e) where
  counted := h.counted.set id e
  stored i hi := by
    obtain ⟨k, hk, hf⟩ := h.stored i hi
    exact ⟨k, by rwa [onCache, ObjectCache.key?_set], by rwa [onCache, ObjectCache.filed?_set]⟩
  providers := h.providers
  once := h.once
  only ha i hi := by
    obtain ⟨k, hk, hf⟩ := hi
    rw [onCache, ObjectCache.key?_set] at hk
    rw [onCache, ObjectCache.filed?_set] at hf
    exact h.only ha i ⟨k, hk, hf⟩

lemma fresh (h : Custody alone callers p) : Custody alone callers (p.onCache fun c => c.fresh.2) :=
  ⟨⟨h.counted.keys, h.counted.filed, h.counted.handles⟩, h.stored, h.providers, h.once, h.only⟩

lemma report (h : Custody alone callers p) (e : Event) : Custody alone callers (p.report e) :=
  ⟨h.counted, h.stored, h.providers, h.once, h.only⟩

lemma drawGain (h : Custody alone callers p) (s : Stage) :
    Custody alone callers (p.drawGain s).2 := by
  have hd := (h.lookup s.gainKey).drawFrom (h.counted.stored_lookup s.gainKey) s
  rw [Pipeline.drawGain]
  dsimp only
  split
  · exact hd
  · exact hd.fresh.set _ _

lemma record (h : Custody alone callers p) {t : TransformState}
    (ht : t.drawn = (p.transform q).drawn) : Custody alone callers (p.setTransform q t) := by
  obtain ⟨others, hp, hq⟩ := perm_setTransform p q t
  have hperm : p.drawnSlots ~ (p.setTransform q t).drawnSlots := by
    refine hp.trans (.trans (.of_eq ?_) hq.symm)
    rw [TransformState.slots, TransformState.slots, ht]
  refine ⟨h.counted.perm (hperm.append_left callers), fun i hi => h.stored i (hperm.symm.subset hi),
    Table.nodup_keys_put h.providers q t, fun q' => ?_,
    fun ha i hi => (hperm.append_left callers).subset (h.only ha i hi)⟩
  rw [transform_setTransform]
  split
  · exact ht ▸ h.once q
  · exact h.once q'

lemma applied {t : Ticket} (h : Custody alone callers p) (s : Stage) :
    Custody alone callers (Pull.applied s (p, t)).1 := (h.drawGain s).record rfl

lemma forget (h : Custody alone callers p) (s : Stage) :
    Custody alone (((p.transform s.provider.id).drawn.lookup s.id).toList ++ callers)
      (p.setTransform s.provider.id ((p.transform s.provider.id).forget s.id)) := by
  have hperm := perm_forget p s (h.once s.provider.id)
  generalize ((p.transform s.provider.id).drawn.lookup s.id).toList = left at hperm ⊢
  have hall : callers ++ p.drawnSlots ~ left ++ callers ++
      (p.setTransform s.provider.id ((p.transform s.provider.id).forget s.id)).drawnSlots := by
    refine (hperm.append_left callers).trans
      (.trans (.of_eq ?_) (List.perm_append_comm.append_right _))
    rw [List.append_assoc]
  refine ⟨h.counted.perm hall,
    fun i hi => h.stored i (hperm.symm.subset (List.mem_append_right _ hi)),
    Table.nodup_keys_put h.providers _ _, fun q => ?_,
    fun ha i hi => hall.subset (h.only ha i hi)⟩
  rw [transform_setTransform]
  split
  · exact (h.once _).sublist (List.filter_sublist.map _)
  · exact h.once q

lemma retire (h : Custody alone callers p) (s : Stage) : Custody False callers (p.retire s) := by
  rw [Pipeline.retire]
  split
  · exact (h.report _).mono False.elim
  · have hf := h.forget s
    dsimp only
    -- The slot stays filed, though there may be no handle on it any more.
    cases hl : (p.transform s.provider.id).drawn.lookup s.id with
    | none =>
      rw [hl] at hf
      exact hf.mono False.elim
    | some slot =>
      rw [hl] at hf
      exact (hf.mono False.elim).drop False.elim
  · exact h.mono False.elim
  · exact h.mono False.elim

lemma settle {alone' : Prop} (h : Custody alone callers p) (r : List Stage × Network)
    (ha : alone' → alone ∧ r.1 = []) : Custody alone' callers (p.settle r) := by
  have hall (ss : List Stage) {p : Pipeline} (h : Custody False callers p) :
      Custody False callers (ss.foldl Pipeline.retire p) := by
    induction ss generalizing p with
    | nil => exact h
    | cons s ss ih => exact ih (h.retire s)
  have hn : Custody alone callers { p with network := r.2 } :=
    ⟨h.counted, h.stored, h.providers, h.once, h.only⟩
  rw [Pipeline.settle]
  cases hr : r.1 with
  | nil => exact hn.mono fun h => (ha h).1
  | cons s ss =>
    refine (hall (s :: ss) (hn.mono False.elim)).mono fun h => ?_
    rw [hr] at ha
    cases (ha h).2

lemma deal (h : Custody alone callers p) {d : Dealing} (hd : d ≠ .clear) :
    Custody False (Lending.step ⟨p.cache, callers⟩ d).callers
      (p.onCache fun _ => (Lending.step ⟨p.cache, callers⟩ d).cache) where
  counted := Lending.counted_step_append (l := ⟨p.cache, callers⟩) h.counted d
  stored i hi := Lending.stored_step (l := ⟨p.cache, callers⟩) h.counted hi (h.stored i hi) hd
  providers := h.providers
  once := h.once
  only hf := hf.elim

end Custody

end Pipeline

end ColourPipeline
