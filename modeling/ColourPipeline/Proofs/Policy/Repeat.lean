import ColourPipeline.Proofs.Graph.Options
import ColourPipeline.Proofs.Policy.Correction
import ColourPipeline.Proofs.Policy.Governed

/-! A second correction finds everything settled. -/

namespace ColourPipeline.Policy

variable {defaults s : OptionSet} {registration : Path} {id : StageId}

def applied? (defaults s : OptionSet) (key : String) : Option OptionEntry :=
  if isProtectedAt s key then none else defaults.find? key

lemma any_applied? (key : String) (p : OptionEntry → Bool) : (applied? defaults s key).any p =
    (!isProtectedAt s key && (defaults.find? key).any p) := by
  rw [applied?]
  cases isProtectedAt s key <;> rfl

lemma kept_settled (key : String) :
    verdict (defaults.find? key) (settled (defaults.find? key) (s.find? key)) = .kept ↔
      outcome defaults s key = .kept ∨
        (applied? defaults s key).any (·.isProtected) = true := by
  rw [verdict_eq_kept, protected_settled, outcome, verdict_eq_kept, any_applied?, isProtectedAt]
  cases (s.find? key).any (·.isProtected) <;> simp

lemma missing_settled (key : String) :
    verdict (defaults.find? key) (settled (defaults.find? key) (s.find? key)) = .missing ↔
      outcome defaults s key = .missing := by
  rw [verdict_eq_missing, protected_settled, outcome, verdict_eq_missing]
  refine and_congr_left fun hd => ?_
  rw [hd, Option.any_none, Bool.or_false]

lemma changed_settled (key : String) :
    verdict (defaults.find? key) (settled (defaults.find? key) (s.find? key)) = .changed ↔
      (applied? defaults s key).any (fun d => !d.isProtected && d.value.isNaN) = true := by
  rw [verdict_eq_changed, protected_settled, any_applied?, isProtectedAt]
  cases he : (s.find? key).any (·.isProtected) with
  | true => simp
  | false =>
    rw [settled_of_free he]
    cases hd : defaults.find? key with
    | none => simp
    | some d =>
      have hs : (automatic d).value.same d.value = !d.value.isNaN := OptionValue.same_self d.value
      simp [hs]

def again (defaults : OptionSet) (registration : Path) (id : StageId) (s : OptionSet) :
    CorrectionReport × OptionSet :=
  correctOptions defaults registration id (correctOptions defaults registration id s).2

lemma again_snd : (again defaults registration id s).2 =
    (correctOptions defaults registration id s).2 := by
  rw [again]
  -- Every key is settled after the first pass, so each step of the second leaves the set alone.
  generalize ht : (correctOptions defaults registration id s).2 = t
  have hk : (keys.foldl (applyKey defaults) ({ stage := some id }, t)).2 = t := by
    apply applyKeys_settled
    intro k hk
    rw [← ht, find?_correctOptions hk, settled_settled]
  rw [correctOptions, applySimulation_settled, hk]
  rw [hk, ← ht, find?_correctOptions_simulationKey]
  cases defaults.text? proofKey with
  | none => exact .inr rfl
  | some profile => exact .inl (by simp)

lemma simulated_twice :
    simulated defaults (correctOptions defaults registration id s).2 =
      if simulated defaults s = .changed then .unchanged else simulated defaults s := by
  unfold simulated
  rw [find?_correctOptions_simulationKey]
  cases s.find? simulationKey <;> cases defaults.text? proofKey <;> rfl

lemma outcome_twice {k : String} (hk : k ∈ keys) :
    outcome defaults (correctOptions defaults registration id s).2 k =
      verdict (defaults.find? k) (settled (defaults.find? k) (s.find? k)) := by
  rw [outcome, find?_correctOptions hk]

lemma again_missing : (again defaults registration id s).1.missing =
    (correctOptions defaults registration id s).1.missing := by
  rw [again, missing_correctOptions, missing_correctOptions, simulated_twice]
  refine congrArg₂ (· ++ ·) ?_ ?_
  · refine List.filter_congr fun k hk => decide_eq_decide.2 ?_
    rw [outcome_twice hk]
    exact missing_settled k
  · cases simulated defaults s <;> simp

lemma again_changed : (again defaults registration id s).1.changed =
    keys.filter fun k =>
      (applied? defaults s k).any fun d => !d.isProtected && d.value.isNaN := by
  rw [again, changed_correctOptions, simulated_twice, if_neg, List.append_nil]
  · refine List.filter_congr fun k hk => ?_
    rw [Bool.eq_iff_iff, decide_eq_true_iff, outcome_twice hk]
    exact changed_settled k
  · cases simulated defaults s <;> decide

lemma again_kept : (again defaults registration id s).1.kept =
    keys.filter fun k => (correctOptions defaults registration id s).1.kept.contains k ||
      (applied? defaults s k).any (·.isProtected) := by
  rw [again, kept_correctOptions, kept_correctOptions]
  refine List.filter_congr fun k hk => ?_
  rw [Bool.eq_iff_iff, decide_eq_true_iff, outcome_twice hk, kept_settled, Bool.or_eq_true]
  simp [hk]

def subject? (net : Network) (scope : Scope) (c : Conversion) : Option Stage :=
  (governed? net scope c).bind net.find?

variable {net : Network} {scope : Scope} {c : Conversion} {declared : OptionSet}
  {source : DefaultsSource} {t : Stage}

lemma correct_of_none (h : subject? net scope c = none) :
    correct net c declared source scope = ({}, net) := by
  rw [subject?] at h
  rw [correct, h]

lemma correct_of_some (h : subject? net scope c = some t) :
    correct net c declared source scope =
      ((correctOptions (effectiveDefaults t declared source .all) t.registration t.id t.options).1,
        net.setOptions t.id
          (correctOptions (effectiveDefaults t declared source .all) t.registration t.id
            t.options).2) := by
  rw [subject?] at h
  rw [correct, h]

lemma subject?_setOptions (h : subject? net scope c = some t) (o : OptionSet) :
    subject? (net.setOptions t.id o) scope c = some { t with options := o } := by
  obtain ⟨j, hj, hf⟩ := Option.bind_eq_some_iff.1 h
  rw [subject?, governed?_setOptions, hj, Option.bind_some, Network.find?_setOptions, hf]
  exact congrArg some (if_pos rfl)

lemma effectiveDefaults_options (o : OptionSet) :
    effectiveDefaults { t with options := o } declared source .all =
      effectiveDefaults t declared source .all := rfl

lemma correct_setOptions (h : subject? net scope c = some t) (o : OptionSet) :
    correct (net.setOptions t.id o) c declared source scope =
      ((correctOptions (effectiveDefaults t declared source .all) t.registration t.id o).1,
        net.setOptions t.id
          (correctOptions (effectiveDefaults t declared source .all) t.registration t.id o).2) := by
  rw [correct_of_some (subject?_setOptions h o), effectiveDefaults_options,
    Network.setOptions_setOptions]
  rfl

lemma correct_correct (h : subject? net scope c = some t) :
    correct (correct net c declared source scope).2 c declared source scope =
      ((again (effectiveDefaults t declared source .all) t.registration t.id t.options).1,
        net.setOptions t.id
          (again (effectiveDefaults t declared source .all) t.registration t.id t.options).2) := by
  rw [correct_of_some h, correct_setOptions h, again]

def brought? (net : Network) (c : Conversion) (declared : OptionSet) (source : DefaultsSource)
    (scope : Scope) (key : String) : Option OptionEntry :=
  (subject? net scope c).bind fun s =>
    if (s.options.find? key).any (Reserved ·) then none
    else (effectiveDefaults s declared source .all).find? key

lemma brought?_of_some (h : subject? net scope c = some t) (key : String) :
    brought? net c declared source scope key =
      applied? (effectiveDefaults t declared source .all) t.options key := by
  rw [brought?, h, Option.bind_some, any_reserved]
  rfl

/-- A second correction right after a first one changes no options, and tells of no more than that
some of what the first one put in place is reserved, or differs from itself. -/
theorem correct_twice (net : Network) (c : Conversion) (declared : OptionSet)
    (source : DefaultsSource) (scope : Scope) :
    let first := correct net c declared source scope
    let second := correct first.2 c declared source scope
    second.2 = first.2 ∧ second.1.stage = first.1.stage ∧ second.1.missing = first.1.missing ∧
      (second.1.changed = keys.filter fun k =>
        (brought? net c declared source scope k).any fun d =>
          ¬ Reserved d ∧ d.value.isNaN = true) ∧
      second.1.kept = keys.filter fun k => k ∈ first.1.kept ∨
        (brought? net c declared source scope k).any (Reserved ·) = true := by
  dsimp only
  cases ht : subject? net scope c with
  | none =>
    have hb (k : String) : brought? net c declared source scope k = none := by
      rw [brought?, ht, Option.bind_none]
    rw [correct_of_none ht, correct_of_none ht]
    simp [hb]
  | some t =>
    simp only [brought?_of_some ht, Bool.decide_and, decide_not, ← isProtected_eq,
      Bool.decide_eq_true, Bool.decide_or, ← List.contains_iff_mem]
    rw [correct_correct ht, correct_of_some ht]
    dsimp only
    refine ⟨?_, ?_, ?_, ?_, ?_⟩
    · rw [again_snd]
    · rw [again, stage_correctOptions, stage_correctOptions]
    · rw [again_missing]
    · rw [again_changed]
    · rw [again_kept]

lemma subject?_pair (o : OptionSet) :
    subject? (pair o) {} { output := some 1 } = some (transformStage o) := by
  show (nearest? (pair o) {} 1).bind (pair o).find? = some (transformStage o)
  rw [nearest?_pair]
  rfl

def preset : OptionSet :=
  .ofList [
    { registration := "icc.transform/gain", value := .double 2 },
    { registration := "icc/rendering_intent", value := .int 3 },
    { registration := "icc/proof_soft", value := .int 1, source := .user }]

def mixedDefaults : OptionSet :=
  .ofList [
    { registration := "icc/rendering_bpc", value := .int 1, flags := { locked := true } },
    { registration := "icc/rendering_intent", value := .int 0 },
    { registration := "icc/proof_hard", value := .double (0 / 0) },
    { registration := "icc/profile_proof", value := .text "a.icc" }]

lemma brought?_preset (key : String) :
    brought? (pair preset) { output := some 1 } mixedDefaults (.fixed .empty) {} key =
      applied? (effectiveDefaults (transformStage preset) mixedDefaults (.fixed .empty) .all)
        preset key := brought?_of_some (subject?_pair preset) key

theorem correct_twice_preset :
    let first := correct (pair preset) { output := some 1 } mixedDefaults (.fixed .empty) {}
    let second := correct first.2 { output := some 1 } mixedDefaults (.fixed .empty) {}
    second.2 = first.2 ∧ second.1.stage = some 0 ∧
      first.1.changed =
        ["proof_hard", "rendering_intent", "rendering_bpc", "profiles_simulation"] ∧
      second.1.changed = ["proof_hard"] ∧ first.1.kept = ["proof_soft"] ∧
      second.1.kept = ["proof_soft", "rendering_bpc"] := by
  obtain ⟨hsame, hstage, -, hchanged, hkept⟩ :=
    correct_twice (pair preset) { output := some 1 } mixedDefaults (.fixed .empty) {}
  refine ⟨hsame, ?_⟩
  rw [hstage, hchanged, hkept, correct_of_some (subject?_pair preset)]
  simp only [brought?_preset]
  decide +kernel

end ColourPipeline.Policy
