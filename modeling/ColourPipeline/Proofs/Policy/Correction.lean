import ColourPipeline.Proofs.Policy.Change

namespace ColourPipeline.Policy

variable {defaults s : OptionSet} {registration : Path} {id : StageId}

lemma nodup_keys : keys.Nodup := by decide

lemma simulationKey_notMem : simulationKey ∉ keys := by decide

lemma key_simulation (profile : String) : (simulation registration profile).key = simulationKey :=
  optionKey_join registration ⟨by decide, by decide, by decide, by decide⟩

def simulated (defaults s : OptionSet) : OptionChange :=
  if (s.find? simulationKey).isSome then .unchanged
  else if (defaults.text? proofKey).isSome then .changed
  else .missing

lemma applySimulation_fst (r : CorrectionReport × OptionSet) :
    (applySimulation defaults registration r).1 =
      r.1.note simulationKey (simulated defaults r.2) := by
  rw [applySimulation, simulated]
  split
  · rfl
  · cases defaults.text? proofKey <;> rfl

lemma find?_applySimulation (r : CorrectionReport × OptionSet) (j : String) :
    (applySimulation defaults registration r).2.find? j =
      if j = simulationKey then
        (r.2.find? j).or ((defaults.text? proofKey).map (simulation registration))
      else r.2.find? j := by
  rw [applySimulation]
  by_cases hr : (r.2.find? simulationKey).isSome = true
  · rw [if_pos hr]
    split
    · subst j
      rw [Option.or_of_isSome hr]
    · rfl
  · rw [if_neg hr]
    have hn := Option.not_isSome_iff_eq_none.1 hr
    cases defaults.text? proofKey with
    | none =>
      dsimp only
      split
      · subst j
        rw [hn]
        rfl
      · rfl
    | some profile =>
      dsimp only
      rw [OptionSet.find?_insert, key_simulation]
      split
      · subst j
        rw [hn]
        rfl
      · rfl

lemma applySimulation_settled {r : CorrectionReport × OptionSet}
    (h : (r.2.find? simulationKey).isSome = true ∨ defaults.text? proofKey = none) :
    (applySimulation defaults registration r).2 = r.2 := by
  rw [applySimulation]
  split
  · rfl
  · rw [h.resolve_left ‹_›]

def outcome (defaults s : OptionSet) (key : String) : OptionChange :=
  verdict (defaults.find? key) (s.find? key)

lemma correctOptions_fst : (correctOptions defaults registration id s).1 =
    (CorrectionReport.noteAll { stage := some id } keys (outcome defaults s)).note simulationKey
      (simulated defaults s) := by
  rw [correctOptions, applySimulation_fst, applyKeys_fst nodup_keys, simulated, simulated,
    find?_applyKeys nodup_keys, if_neg simulationKey_notMem]
  rfl

lemma find?_correctOptions {k : String} (hk : k ∈ keys) :
    (correctOptions defaults registration id s).2.find? k =
      settled (defaults.find? k) (s.find? k) := by
  rw [correctOptions, find?_applySimulation, if_neg (ne_of_mem_of_not_mem hk simulationKey_notMem),
    find?_applyKeys nodup_keys, if_pos hk]

lemma find?_correctOptions_simulationKey :
    (correctOptions defaults registration id s).2.find? simulationKey =
      (s.find? simulationKey).or ((defaults.text? proofKey).map (simulation registration)) := by
  rw [correctOptions, find?_applySimulation, if_pos rfl, find?_applyKeys nodup_keys,
    if_neg simulationKey_notMem]

lemma simulated_ne_kept (defaults s : OptionSet) : simulated defaults s ≠ .kept := by
  rw [simulated]
  split
  · simp
  · split <;> simp

lemma missing_correctOptions : (correctOptions defaults registration id s).1.missing =
    keys.filter (outcome defaults s · = .missing) ++
      if simulated defaults s = .missing then [simulationKey] else [] := by
  rw [correctOptions_fst]
  cases simulated defaults s <;> simp [CorrectionReport.note, CorrectionReport.noteAll]

lemma changed_correctOptions : (correctOptions defaults registration id s).1.changed =
    keys.filter (outcome defaults s · = .changed) ++
      if simulated defaults s = .changed then [simulationKey] else [] := by
  rw [correctOptions_fst]
  cases simulated defaults s <;> simp [CorrectionReport.note, CorrectionReport.noteAll]

lemma kept_correctOptions : (correctOptions defaults registration id s).1.kept =
    keys.filter (outcome defaults s · = .kept) := by
  rw [correctOptions_fst]
  have h := simulated_ne_kept defaults s
  cases hc : simulated defaults s with
  | kept => exact absurd hc h
  | _ => simp [CorrectionReport.note, CorrectionReport.noteAll]

lemma stage_correctOptions : (correctOptions defaults registration id s).1.stage = some id := by
  rw [correctOptions_fst]
  cases simulated defaults s <;> rfl

lemma error_correctOptions : (correctOptions defaults registration id s).1.error = false := by
  rw [correctOptions_fst]
  cases simulated defaults s <;> rfl

end ColourPipeline.Policy
