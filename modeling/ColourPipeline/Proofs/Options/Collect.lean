import ColourPipeline.Proofs.Options.Unique

namespace ColourPipeline.OptionSet

variable {s t : OptionSet} {d e : OptionEntry} {k : String}

lemma put_put (h : d.key = e.key) (ds : List OptionEntry) : put e (put d ds) = put e ds := by
  induction ds with
  | nil => simp [put, h]
  | cons c ds ih =>
    by_cases hc : c.key = e.key
    · simp [put, h, hc]
    · simp [put, h, hc, ih]

lemma put_comm {ds : List OptionEntry} (h : d.key ≠ e.key) (hm : e.key ∈ ds.map (·.key)) :
    put e (put d ds) = put d (put e ds) := by
  induction ds with
  | nil => cases hm
  | cons c ds ih =>
    by_cases he : c.key = e.key
    · simp [put, he, Ne.symm h]
    · have hm : e.key ∈ ds.map (·.key) := (List.mem_cons.1 hm).resolve_left (Ne.symm he)
      by_cases hd : c.key = d.key
      · simp [put, hd, h]
      · simp [put, he, hd, ih hm]

lemma insert_insert (h : d.key = e.key) : (s.insert d).insert e = s.insert e :=
  congrArg OptionSet.mk (put_put h s.entries)

lemma insert_comm (h : d.key ≠ e.key) (hm : e.key ∈ s.keys) :
    (s.insert d).insert e = (s.insert e).insert d :=
  congrArg OptionSet.mk (put_comm h hm)

lemma mem_keys_insert : k ∈ (s.insert e).keys ↔ k ∈ s.keys ∨ k = e.key := by
  rw [keys_insert]
  split <;> simp_all

lemma foldl_insert_comm {es : List OptionEntry} (he : e.key ∈ s.keys)
    (hes : e.key ∉ es.map (·.key)) :
    es.foldl insert (s.insert e) = (es.foldl insert s).insert e := by
  induction es generalizing s with
  | nil => rfl
  | cons d es ih =>
    obtain ⟨hd, hes⟩ := not_or.1 (mt List.mem_cons.2 hes)
    rw [List.foldl_cons, List.foldl_cons, ← insert_comm (Ne.symm hd) he,
      ih (mem_keys_insert.2 (.inl he)) hes]

lemma insert_eq_edit (h : e.key ∈ s.keys) : s.insert e = s.edit e.key fun _ => e := by
  obtain ⟨ds⟩ := s
  rw [insert, edit]
  congr 1
  induction ds with
  | nil => cases h
  | cons d ds ih =>
    by_cases hd : d.key = e.key
    · simp [put, editFirst, hd]
    · simpa [put, editFirst, hd] using ih ((List.mem_cons.1 h).resolve_left (Ne.symm hd))

lemma merge_insert (ht : t.keys.Nodup) (e : OptionEntry) :
    s.merge (t.insert e) = (s.merge t).insert e := by
  by_cases he : e.key ∈ t.keys
  · obtain ⟨d, hd⟩ := Option.isSome_iff_exists.1 (find?_isSome.2 he)
    obtain ⟨ds, es, hds, hedit⟩ := exists_append_of_find? hd
    have hd := key_of_find? hd
    have hes : e.key ∉ es.map (·.key) := by
      rw [keys, hds, List.map_append, List.map_cons, List.nodup_middle, List.nodup_cons, hd] at ht
      exact fun h => ht.1 (List.mem_append_right _ h)
    rw [merge, merge, insert_eq_edit he, hedit, hds, List.foldl_append, List.foldl_append,
      List.foldl_cons, List.foldl_cons,
      ← foldl_insert_comm (mem_keys_insert.2 (.inr hd.symm)) hes, insert_insert hd]
  · rw [merge, insert, put_of_notMem he]
    exact List.foldl_concat ..

lemma ofList_concat (es : List OptionEntry) (e : OptionEntry) :
    ofList (es ++ [e]) = (ofList es).insert e :=
  List.foldl_concat ..

lemma ofList_append (xs ys : List OptionEntry) :
    ofList (xs ++ ys) = (ofList xs).merge (ofList ys) := by
  induction ys using List.reverseRecOn with
  | nil => rw [List.append_nil]; rfl
  | append_singleton ys e ih =>
    rw [← List.append_assoc, ofList_concat, ofList_concat, ih, merge_insert (nodup_ofList ys)]

lemma find?_inserts (es : List OptionEntry) (s : OptionSet) (k : String) :
    (es.foldl insert s).find? k = (es.reverse.find? (·.key == k)).or (s.find? k) := by
  induction es using List.reverseRecOn with
  | nil => rfl
  | append_singleton es e ih =>
    rw [List.foldl_concat, find?_insert, ih, List.reverse_concat, List.find?_cons]
    by_cases h : k = e.key
    · simp [h]
    · simp [h, beq_eq_false_iff_ne.2 (Ne.symm h)]

lemma find?_eq_some (hs : s.keys.Nodup) : s.find? k = some e ↔ e ∈ s.entries ∧ e.key = k := by
  constructor
  · exact fun h => ⟨List.mem_of_find?_eq_some h, key_of_find? h⟩
  · rintro ⟨he, rfl⟩
    exact find?_of_mem hs he

lemma find?_reverse {es : List OptionEntry} (h : (es.map (·.key)).Nodup) :
    es.reverse.find? (·.key == k) = es.find? (·.key == k) := by
  have hr : keys ⟨es.reverse⟩ = (keys ⟨es⟩).reverse := List.map_reverse
  have hn : (keys ⟨es.reverse⟩).Nodup := hr ▸ List.nodup_reverse.2 h
  refine Option.ext fun e => ?_
  change find? ⟨es.reverse⟩ k = some e ↔ find? ⟨es⟩ k = some e
  rw [find?_eq_some hn, find?_eq_some h, List.mem_reverse]

lemma find?_merge (ht : t.keys.Nodup) (k : String) :
    (s.merge t).find? k = (t.find? k).or (s.find? k) := by
  rw [merge, find?_inserts, find?_reverse ht]
  rfl

lemma keys_inserts {es : List OptionEntry} (h : (es.map (·.key)).Nodup) :
    (es.foldl insert s).keys = s.keys ++ (es.map (·.key)).filter (· ∉ s.keys) := by
  induction es using List.reverseRecOn with
  | nil => simp
  | append_singleton es e ih =>
    rw [List.map_append, List.map_singleton] at h
    obtain ⟨hes, -, hne⟩ := List.nodup_append.1 h
    have he : e.key ∉ es.map (·.key) := fun hm => hne _ hm _ List.mem_cons_self rfl
    rw [List.foldl_concat, keys_insert, ih hes, List.map_append, List.map_singleton,
      List.filter_append, List.append_assoc]
    by_cases hs : e.key ∈ s.keys <;> simp [hs, he]

lemma keys_merge (ht : t.keys.Nodup) :
    (s.merge t).keys = s.keys ++ t.keys.filter (· ∉ s.keys) :=
  keys_inserts ht

lemma nodup_merge (hs : s.keys.Nodup) (t : OptionSet) : (s.merge t).keys.Nodup :=
  nodup_inserts hs t.entries

lemma keys_ofList (es : List OptionEntry) : (ofList es).keys = (es.map (·.key)).eraseDups := by
  induction es using List.reverseRecOn with
  | nil => rfl
  | append_singleton es e ih =>
    rw [ofList_concat, keys_insert, ih, List.map_append, List.map_singleton,
      List.eraseDups_append]
    generalize es.map (·.key) = ks
    by_cases h : e.key ∈ ks <;> simp [List.removeAll, List.eraseDups_cons, h]

lemma find?_ofList (es : List OptionEntry) (k : String) :
    (ofList es).find? k = es.reverse.find? (·.key == k) :=
  (find?_inserts es empty k).trans (Option.or_none ..)

lemma mem_of_mem_put {ds : List OptionEntry} (h : d ∈ put e ds) : d = e ∨ d ∈ ds := by
  induction ds with
  | nil => exact .inl (List.mem_singleton.1 h)
  | cons c ds ih =>
    rw [put] at h
    split at h
    · exact (List.mem_cons.1 h).imp id (List.mem_cons_of_mem c)
    · rcases List.mem_cons.1 h with rfl | h
      · exact .inr List.mem_cons_self
      · exact (ih h).imp id (List.mem_cons_of_mem c)

lemma mem_of_mem_ofList {es : List OptionEntry} (h : e ∈ (ofList es).entries) : e ∈ es := by
  induction es using List.reverseRecOn with
  | nil => exact h
  | append_singleton es d ih =>
    rw [ofList_concat] at h
    rw [List.mem_append, List.mem_singleton]
    exact (mem_of_mem_put h).symm.imp ih id

lemma mem_keys_ofList {es : List OptionEntry} : k ∈ (ofList es).keys ↔ ∃ e ∈ es, e.key = k := by
  induction es using List.reverseRecOn with
  | nil => simp [ofList, keys, empty]
  | append_singleton es d ih =>
    rw [ofList_concat, mem_keys_insert, ih]
    simp [or_and_right, exists_or, eq_comm]

section Placed

variable {π : Type*} [LinearOrder π] {ps : List (π × OptionEntry)}

lemma find?_ofList_placed (hps : ps.Pairwise (·.1 < ·.1)) :
    (ofList (ps.map (·.2))).find? k = some e ↔
      ∃ p ∈ ps, p.2 = e ∧ e.key = k ∧ ∀ q ∈ ps, q.2.key = k → q.1 ≤ p.1 := by
  induction ps using List.reverseRecOn with
  | nil => simp [ofList, find?, empty]
  | append_singleton ps p ih =>
    obtain ⟨hps, -, hp⟩ := List.pairwise_append.1 hps
    have hp (q) (hq : q ∈ ps) : q.1 < p.1 := hp q hq p List.mem_cons_self
    rw [List.map_append, List.map_singleton, ofList_concat, find?_insert]
    by_cases hk : k = p.2.key
    · rw [if_pos hk, Option.some_inj]
      constructor
      · rintro rfl
        refine ⟨p, by simp, rfl, hk.symm, fun q hq _ => ?_⟩
        rcases List.mem_append.1 hq with hq | hq
        · exact (hp q hq).le
        · rw [List.mem_singleton.1 hq]
      · rintro ⟨q, hq, rfl, -, hlast⟩
        rcases List.mem_append.1 hq with hq | hq
        · exact absurd (hlast p (by simp) hk.symm) (not_le_of_gt (hp q hq))
        · rw [List.mem_singleton.1 hq]
    · rw [if_neg hk, ih hps]
      simp only [List.mem_append, List.mem_singleton]
      constructor
      · rintro ⟨q, hq, rfl, he, hlast⟩
        refine ⟨q, .inl hq, rfl, he, ?_⟩
        rintro r (hr | rfl) hrk
        · exact hlast r hr hrk
        · exact absurd hrk.symm hk
      · rintro ⟨q, hq | rfl, rfl, he, hlast⟩
        · exact ⟨q, hq, rfl, he, fun r hr => hlast r (.inl hr)⟩
        · exact absurd he.symm hk

lemma pairwise_ofList_placed (hps : ps.Pairwise (·.1 < ·.1)) :
    (ofList (ps.map (·.2))).keys.Pairwise fun j k =>
      ∃ p ∈ ps, p.2.key = j ∧ ∀ q ∈ ps, q.2.key = k → p.1 < q.1 := by
  induction ps using List.reverseRecOn with
  | nil => exact List.Pairwise.nil
  | append_singleton ps p ih =>
    obtain ⟨hps, -, hp⟩ := List.pairwise_append.1 hps
    have hp (q) (hq : q ∈ ps) : q.1 < p.1 := hp q hq p List.mem_cons_self
    have hold : (ofList (ps.map (·.2))).keys.Pairwise fun j k =>
        ∃ r ∈ ps ++ [p], r.2.key = j ∧ ∀ q ∈ ps ++ [p], q.2.key = k → r.1 < q.1 := by
      refine (ih hps).imp ?_
      rintro j k ⟨r, hr, hj, hfirst⟩
      refine ⟨r, List.mem_append_left _ hr, hj, fun q hq hqk => ?_⟩
      rcases List.mem_append.1 hq with hq | hq
      · exact hfirst q hq hqk
      · rw [List.mem_singleton.1 hq]
        exact hp r hr
    rw [List.map_append, List.map_singleton, ofList_concat, keys_insert]
    split
    · rwa [List.append_nil]
    · rename_i hnew
      refine List.pairwise_append.2 ⟨hold, List.pairwise_singleton _ _, fun j hj k hk => ?_⟩
      obtain ⟨e, he, rfl⟩ := mem_keys_ofList.1 hj
      obtain ⟨r, hr, rfl⟩ := List.mem_map.1 he
      refine ⟨r, List.mem_append_left _ hr, rfl, fun q hq hqk => ?_⟩
      rcases List.mem_append.1 hq with hq | hq
      · rw [List.mem_singleton.1 hk] at hqk
        exact absurd (mem_keys_ofList.2 ⟨q.2, List.mem_map_of_mem hq, hqk⟩) hnew
      · rw [List.mem_singleton.1 hq]
        exact hp r hr

end Placed

end ColourPipeline.OptionSet
