import ColourPipeline.Options.Json
import ColourPipeline.Proofs.Options.Set

namespace ColourPipeline.OptionSet

inductive Step where
  | insert (e : OptionEntry)
  | setUser (registration : String) (value : OptionValue)
  | erase (key : String)
  | merge (t : OptionSet)
  | filtered (filter : AttributeFilter)
  | collect (es : List OptionEntry)
  | read (text : String)
  | edit (key : String) (f : OptionEntry → OptionEntry)

def apply (s : OptionSet) : Step → OptionSet
  | .insert e => s.insert e
  | .setUser registration value => s.setUser registration value
  | .erase key => s.erase key
  | .merge t => s.merge t
  | .filtered filter => s.filtered filter
  | .collect es => ofList es
  | .read text => (read? text).getD s
  | .edit key f => s.edit key f

def run (steps : List Step) : OptionSet := steps.foldl apply empty

variable {s : OptionSet} {key : String} {e : OptionEntry} {f : OptionEntry → OptionEntry}

lemma nodup_insert (hs : s.keys.Nodup) (e : OptionEntry) : (s.insert e).keys.Nodup := by
  rw [keys_insert]
  split
  · rwa [List.append_nil]
  · exact hs.append (List.nodup_singleton _) (List.disjoint_singleton.2 ‹_›)

lemma nodup_inserts (hs : s.keys.Nodup) (es : List OptionEntry) :
    (es.foldl OptionSet.insert s).keys.Nodup := by
  induction es generalizing s with
  | nil => exact hs
  | cons e es ih => exact ih (nodup_insert hs e)

lemma nodup_ofList (es : List OptionEntry) : (ofList es).keys.Nodup :=
  nodup_inserts (s := empty) List.nodup_nil es

lemma nodup_of_sublist {t : OptionSet} (hs : s.keys.Nodup) (h : t.entries.Sublist s.entries) :
    t.keys.Nodup :=
  hs.sublist (h.map _)

lemma nodup_of_read? {text : String} (h : read? text = some s) : s.keys.Nodup := by
  obtain ⟨v, -, hv⟩ := Option.bind_eq_some_iff.1 h
  obtain ⟨es, -, rfl⟩ := Option.map_eq_some_iff.1 hv
  exact nodup_ofList es

lemma edit_of_none (h : s.find? key = none) (f : OptionEntry → OptionEntry) :
    s.edit key f = s := by
  obtain ⟨es⟩ := s
  rw [edit]
  congr 1
  rw [find?, List.find?_eq_none] at h
  dsimp only at h ⊢
  induction es with
  | nil => rfl
  | cons d es ih =>
    obtain ⟨hd, hes⟩ := List.forall_mem_cons.1 h
    rw [editFirst, if_neg (by simpa using hd), ih hes]

lemma exists_append_of_find? (h : s.find? key = some e) :
    ∃ ds es, s.entries = ds ++ e :: es ∧ ∀ f, (s.edit key f).entries = ds ++ f e :: es := by
  obtain ⟨hk, ds, es, hs, hds⟩ := List.find?_eq_some_iff_append.1 h
  refine ⟨ds, es, hs, fun f => ?_⟩
  rw [edit, hs]
  clear h hs
  induction ds with
  | nil => simp_all [editFirst]
  | cons d ds ih =>
    obtain ⟨hd, hds⟩ := List.forall_mem_cons.1 hds
    rw [List.cons_append, List.cons_append, editFirst, if_neg (by simpa using hd)]
    exact congrArg (d :: ·) (ih hds)

theorem nodup_edit_iff (hs : s.keys.Nodup) (h : s.find? key = some e) :
    (s.edit key f).keys.Nodup ↔ (f e).key = key ∨ (f e).key ∉ s.keys := by
  obtain ⟨ds, es, he, hf⟩ := exists_append_of_find? h
  rw [keys, he, List.map_append, List.map_cons, key_of_find? h] at hs
  rw [keys, keys, he, hf, List.map_append, List.map_cons, List.map_append, List.map_cons,
    key_of_find? h]
  have hnew := @List.nodup_middle _ (f e).key (ds.map (·.key)) (es.map (·.key))
  obtain ⟨hold, hrest⟩ := List.nodup_cons.1 (List.nodup_middle.1 hs)
  rw [hnew, List.nodup_cons, and_iff_left hrest]
  simp only [List.mem_append, List.mem_cons] at hold ⊢
  constructor
  · tauto
  · rintro (hk | hk)
    · rwa [hk]
    · tauto

lemma nodup_apply (hs : s.keys.Nodup) {step : Step}
    (h : ∀ key f e, step = .edit key f → s.find? key = some e →
      (f e).key = key ∨ (f e).key ∉ s.keys) : (s.apply step).keys.Nodup := by
  cases step with
  | insert e => exact nodup_insert hs e
  | setUser registration value => exact nodup_insert hs _
  | erase key => exact nodup_of_sublist hs (List.eraseP_sublist)
  | merge t => exact nodup_inserts hs t.entries
  | filtered filter => exact nodup_of_sublist hs List.filter_sublist
  | collect es => exact nodup_ofList es
  | read text =>
    show ((read? text).getD s).keys.Nodup
    cases hr : read? text with
    | none => exact hs
    | some t => exact nodup_of_read? hr
  | edit key f =>
    show (s.edit key f).keys.Nodup
    cases hf : s.find? key with
    | none => rwa [edit_of_none hf]
    | some e => exact (nodup_edit_iff hs hf).2 (h key f e rfl hf)

/-- Keys stay distinct exactly as long as no edit in place gives an entry the key of another. -/
theorem nodup_run_iff (steps : List Step) :
    (∀ past, past <+: steps → (run past).keys.Nodup) ↔
      ∀ past key f e, past ++ [.edit key f] <+: steps → (run past).find? key = some e →
        (f e).key = key ∨ (f e).key ∉ (run past).keys := by
  have hrun (past : List Step) (step : Step) : run (past ++ [step]) = (run past).apply step :=
    List.foldl_concat ..
  constructor
  · intro h past key f e hp hf
    have hpast := h past ((List.prefix_append past _).trans hp)
    have hnext := h _ hp
    rw [hrun] at hnext
    exact (nodup_edit_iff hpast hf).1 hnext
  · intro h past hp
    induction past using List.reverseRecOn with
    | nil => exact List.nodup_nil
    | append_singleton past step ih =>
      rw [hrun]
      refine nodup_apply (ih ((List.prefix_append past _).trans hp)) ?_
      rintro key f e rfl hf
      exact h past key f e hp hf

theorem not_nodup_run_moved : ¬ (run [.insert { registration := "x/a", value := .int 1 },
    .insert { registration := "x/b", value := .int 2 },
    .edit "b" fun e => { e with registration := "x/a" }]).keys.Nodup := by
  decide +kernel

end ColourPipeline.OptionSet
