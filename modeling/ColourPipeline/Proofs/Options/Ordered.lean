import ColourPipeline.Proofs.Options.Collect

namespace ColourPipeline.OptionSet

variable {s t : OptionSet} {d e : OptionEntry} {k : String}

lemma put_eq_set {ds : List OptionEntry} {i : ℕ}
    (h : ds.findIdx? (·.key == e.key) = some i) : put e ds = ds.set i e := by
  induction ds generalizing i with
  | nil => cases h
  | cons d ds ih =>
    rw [List.findIdx?_cons] at h
    by_cases hd : d.key = e.key
    · obtain rfl : 0 = i := by simpa [hd] using h
      rw [put, if_pos hd, List.set_cons_zero]
    · obtain ⟨j, hj, rfl⟩ : ∃ j, ds.findIdx? (·.key == e.key) = some j ∧ j + 1 = i := by
        simpa [hd] using h
      rw [put, if_neg hd, ih hj, List.set_cons_succ]

lemma moveIn_eq (s : OptionSet) (e : OptionEntry) : s.moveIn e = (s.find? e.key, s.insert e) := by
  rw [moveIn, find?, List.find?_eq_bind_findIdx?_getElem?, insert]
  cases h : s.entries.findIdx? (·.key == e.key) with
  | some i => rw [put_eq_set h]; rfl
  | none =>
    have hk : e.key ∉ s.entries.map (·.key) := by simpa using List.findIdx?_eq_none_iff.1 h
    rw [put_of_notMem hk]
    rfl

lemma takeOut_eq (s : OptionSet) (k : String) : s.takeOut k = (s.find? k, s.erase k) := by
  rw [takeOut, find?, List.find?_eq_bind_findIdx?_getElem?, erase, List.eraseP_eq_eraseIdx]
  cases s.entries.findIdx? (·.key == k) <;> rfl

structure MovedIn (s : OptionSet) (e : OptionEntry) (old : Option OptionEntry) (t : OptionSet) :
    Prop where
  found : t.find? e.key = some e
  others : ∀ k, k ≠ e.key → t.find? k = s.find? k
  replaced : ∀ d, old = some d → d.key = e.key ∧
    ∃ ds es, s.entries = ds ++ d :: es ∧ t.entries = ds ++ e :: es
  appended : old = none → e.key ∉ s.keys ∧ t.entries = s.entries ++ [e]

lemma movedIn (s : OptionSet) (e : OptionEntry) : MovedIn s e (s.moveIn e).1 (s.moveIn e).2 := by
  rw [moveIn_eq]
  refine ⟨find?_insert.trans (if_pos rfl), fun k hk => find?_insert.trans (if_neg hk), ?_, ?_⟩
  · intro d hd
    obtain ⟨ds, es, hs, hedit⟩ := exists_append_of_find? hd
    refine ⟨key_of_find? hd, ds, es, hs, ?_⟩
    rw [insert_eq_edit (find?_isSome.1 (Option.isSome_of_eq_some hd)), hedit]
  · intro hnone
    have hk := find?_eq_none.1 hnone
    exact ⟨hk, put_of_notMem hk⟩

lemma erase_entries (hs : s.keys.Nodup) (k : String) :
    (s.erase k).entries = s.entries.filter (·.key ≠ k) := by
  obtain ⟨ds⟩ := s
  change ds.eraseP (·.key == k) = ds.filter (·.key ≠ k)
  induction ds with
  | nil => rfl
  | cons d ds ih =>
    obtain ⟨hd, hds⟩ := List.nodup_cons.1 hs
    by_cases hk : d.key = k
    · subst hk
      have hrest : ds.filter (·.key ≠ d.key) = ds :=
        List.filter_eq_self.2 fun e he => by
          simpa using fun h => hd (List.mem_map.2 ⟨e, he, h⟩)
      rw [List.eraseP_cons_of_pos (by simp), List.filter_cons_of_neg (by simp), hrest]
    · rw [List.eraseP_cons_of_neg (by simpa using hk), List.filter_cons_of_pos (by simpa using hk),
        ih hds]

def firstsWithLast (es : List OptionEntry) : List OptionEntry :=
  (es.map (·.key)).eraseDups.filterMap fun k => es.reverse.find? (·.key == k)

lemma ofList_eq (es : List OptionEntry) : (ofList es).entries = firstsWithLast es := by
  rw [entries_eq (nodup_ofList es), keys_ofList, firstsWithLast]
  exact List.filterMap_congr fun k _ => find?_ofList es k

def overlaid (s t : OptionSet) : List OptionEntry :=
  s.entries.map (fun e => (t.find? e.key).getD e) ++ t.entries.filter (·.key ∉ s.keys)

lemma merge_entries (hs : s.keys.Nodup) (ht : t.keys.Nodup) :
    (s.merge t).entries = overlaid s t := by
  have hleft : s.keys.filterMap (s.merge t).find? =
      s.entries.map fun e => (t.find? e.key).getD e := by
    rw [keys, List.filterMap_map, ← List.filterMap_eq_map']
    refine List.filterMap_congr fun e he => ?_
    rw [Function.comp_apply, find?_merge ht, find?_of_mem hs he]
    cases t.find? e.key <;> rfl
  have hright : (t.keys.filter (· ∉ s.keys)).filterMap (s.merge t).find? =
      t.entries.filter (·.key ∉ s.keys) := by
    change ((t.entries.map (·.key)).filter (· ∉ s.keys)).filterMap _ = _
    rw [List.filter_map, List.filterMap_map]
    conv_rhs => rw [← @List.filterMap_some _ (t.entries.filter _)]
    refine List.filterMap_congr fun e he => ?_
    rw [Function.comp_apply, find?_merge ht, find?_of_mem ht (List.mem_of_mem_filter he)]
    rfl
  rw [entries_eq (nodup_merge hs t), keys_merge ht, List.filterMap_append, hleft, hright,
    overlaid]

lemma merge_assoc (ht : t.keys.Nodup) (s u : OptionSet) :
    (s.merge t).merge u = s.merge (t.merge u) := by
  obtain ⟨es⟩ := u
  induction es using List.reverseRecOn with
  | nil => rfl
  | append_singleton es e ih =>
    have hconcat (r : OptionSet) : r.merge ⟨es ++ [e]⟩ = (r.merge ⟨es⟩).insert e :=
      List.foldl_concat ..
    rw [hconcat, hconcat, ih, merge_insert (nodup_merge ht _)]

lemma merge_of_found (h : ∀ e ∈ t.entries, s.find? e.key = some e) : s.merge t = s := by
  obtain ⟨es⟩ := t
  change es.foldl insert s = s
  induction es with
  | nil => rfl
  | cons e es ih =>
    obtain ⟨he, hes⟩ := List.forall_mem_cons.1 h
    rw [List.foldl_cons, insert_of_find? he]
    exact ih hes

lemma merge_self (hs : s.keys.Nodup) : s.merge s = s :=
  merge_of_found fun _ he => find?_of_mem hs he

/-- Sets of options are maps that remember in which order their keys came. -/
theorem ordered_map :
    (∀ (s : OptionSet) (e : OptionEntry), MovedIn s e (s.moveIn e).1 (s.moveIn e).2) ∧
    (∀ (s : OptionSet) (k : String), s.keys.Nodup → (s.takeOut k).1 = s.find? k ∧
      (s.takeOut k).2.entries = s.entries.filter (·.key ≠ k)) ∧
    (∀ es : List OptionEntry, (ofList es).entries = firstsWithLast es) ∧
    (∀ s t : OptionSet, s.keys.Nodup → t.keys.Nodup → (s.merge t).entries = overlaid s t) ∧
    (∀ s t u : OptionSet, t.keys.Nodup → (s.merge t).merge u = s.merge (t.merge u)) ∧
    (∀ s : OptionSet, s.keys.Nodup → s.merge s = s ∧ s.merge empty = s ∧ empty.merge s = s) ∧
    ∀ xs ys : List OptionEntry, ofList (xs ++ ys) = (ofList xs).merge (ofList ys) := by
  refine ⟨movedIn, fun s k hs => ?_, ofList_eq, fun s t hs ht => merge_entries hs ht,
    fun s t u ht => merge_assoc ht s u, fun s hs => ⟨merge_self hs, rfl, ofList_entries hs⟩,
    ofList_append⟩
  rw [takeOut_eq]
  exact ⟨rfl, erase_entries hs k⟩

def intentAndBlack : OptionSet := ⟨[
  { registration := "a/rendering_intent", value := .int 0 },
  { registration := "a/rendering_bpc", value := .int 1 }]⟩

def noteAndPreset : OptionSet := ⟨[
  { registration := "b/note", value := .text "soft" },
  { registration := "b/rendering_intent.preset", value := .int 3, source := .user }]⟩

theorem ordered_map_preset :
    (intentAndBlack.merge noteAndPreset).entries = [
      { registration := "b/rendering_intent.preset", value := .int 3, source := .user },
      { registration := "a/rendering_bpc", value := .int 1 },
      { registration := "b/note", value := .text "soft" }] ∧
    (intentAndBlack.takeOut "rendering_intent").2.entries =
      [{ registration := "a/rendering_bpc", value := .int 1 }] ∧
    (intentAndBlack.merge noteAndPreset).merge intentAndBlack =
      intentAndBlack.merge (noteAndPreset.merge intentAndBlack) ∧
    noteAndPreset.merge noteAndPreset = noteAndPreset := by
  have hs : intentAndBlack.keys.Nodup := by decide +kernel
  have ht : noteAndPreset.keys.Nodup := by decide +kernel
  obtain ⟨-, htake, -, hmerge, hassoc, hself, -⟩ := ordered_map
  refine ⟨(hmerge _ _ hs ht).trans ?_, (htake _ _ hs).2.trans ?_, hassoc _ _ _ ht,
    (hself _ ht).1⟩
  · decide +kernel
  · decide +kernel

end ColourPipeline.OptionSet
