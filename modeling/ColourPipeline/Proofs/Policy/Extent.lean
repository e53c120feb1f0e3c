import ColourPipeline.Proofs.Policy.Repeat
import ColourPipeline.Provider.Builtin

namespace ColourPipeline

namespace Policy

variable {defaults s : OptionSet} {registration : Path} {id : StageId} {key : String}

def supplies (defaults s : OptionSet) (key : String) : Bool :=
  (s.find? key).isNone && (defaults.find? key).isSome

def suppliesSimulation (defaults s : OptionSet) : Bool :=
  (s.find? simulationKey).isNone && (defaults.text? proofKey).isSome

lemma keys_applyDefault : (applyDefault defaults key s).2.keys =
    s.keys ++ [key].filter (supplies defaults s) := by
  rw [applyDefault, isProtectedAt]
  split
  · have hs : (s.find? key).isNone = false := by
      simpa using Option.isSome_of_any ‹_›
    simp [supplies, hs]
  · cases hd : defaults.find? key with
    | none => simp [supplies, hd]
    | some d =>
      have hk : (automatic d).key = key := (key_automatic d).trans (OptionSet.key_of_find? hd)
      dsimp only
      rw [OptionSet.keys_insert, hk]
      by_cases hm : key ∈ s.keys
      · have hs : (s.find? key).isNone = false := by simpa using OptionSet.find?_isSome.2 hm
        simp [supplies, hm, hs]
      · simp [supplies, hm, hd, OptionSet.find?_eq_none.2 hm]

lemma keys_applyKeys {ks : List String} (hk : ks.Nodup) (r : CorrectionReport × OptionSet) :
    (ks.foldl (applyKey defaults) r).2.keys = r.2.keys ++ ks.filter (supplies defaults r.2) := by
  induction ks generalizing r with
  | nil => simp
  | cons k ks ih =>
    obtain ⟨hn, hks⟩ := List.nodup_cons.1 hk
    have hs : (applyKey defaults r k).2.keys = _ := keys_applyDefault
    have hrest (j : String) (hj : j ∈ ks) :
        supplies defaults (applyKey defaults r k).2 j = supplies defaults r.2 j := by
      have hf : (applyKey defaults r k).2.find? j = _ := find?_applyDefault j
      rw [supplies, hf, if_neg (ne_of_mem_of_not_mem hj hn), supplies]
    rw [List.foldl_cons, ih hks, List.filter_congr hrest, hs, List.append_assoc,
      ← List.filter_append, List.singleton_append]

lemma keys_applySimulation (r : CorrectionReport × OptionSet) :
    (applySimulation defaults registration r).2.keys =
      r.2.keys ++ if suppliesSimulation defaults r.2 then [simulationKey] else [] := by
  rw [applySimulation, suppliesSimulation]
  cases hf : r.2.find? simulationKey with
  | some e => simp
  | none =>
    have hm := OptionSet.find?_eq_none.1 hf
    cases defaults.text? proofKey with
    | none => simp
    | some profile => simp [OptionSet.keys_insert, key_simulation, hm]

lemma keys_correctOptions : (correctOptions defaults registration id s).2.keys =
    s.keys ++ keys.filter (supplies defaults s) ++
      if suppliesSimulation defaults s then [simulationKey] else [] := by
  have hs : suppliesSimulation defaults
      (keys.foldl (applyKey defaults) ({ stage := some id }, s)).2 =
      suppliesSimulation defaults s := by
    rw [suppliesSimulation, find?_applyKeys nodup_keys, if_neg simulationKey_notMem,
      suppliesSimulation]
  rw [correctOptions, keys_applySimulation, hs, keys_applyKeys nodup_keys]

lemma nodup_correctOptions (hs : s.keys.Nodup) :
    (correctOptions defaults registration id s).2.keys.Nodup := by
  have hsup (k : String) (hk : supplies defaults s k = true) : k ∉ s.keys := by
    rw [← OptionSet.find?_eq_none]
    exact Option.isNone_iff_eq_none.1 (Bool.and_eq_true_iff.1 hk).1
  have hsim (h : suppliesSimulation defaults s = true) : simulationKey ∉ s.keys := by
    rw [← OptionSet.find?_eq_none]
    exact Option.isNone_iff_eq_none.1 (Bool.and_eq_true_iff.1 h).1
  rw [keys_correctOptions, List.append_assoc]
  refine hs.append (.append (nodup_keys.filter _) ?_ ?_) ?_
  · split <;> simp
  · split
    · rw [List.disjoint_singleton]
      exact fun h => simulationKey_notMem (List.mem_of_mem_filter h)
    · exact List.disjoint_nil_right _
  · rw [List.disjoint_append_right]
    constructor
    · exact fun k hk hkf => hsup k (List.mem_filter.1 hkf).2 hk
    · split
      · rw [List.disjoint_singleton]
        exact hsim ‹_›
      · exact List.disjoint_nil_right _

lemma find?_correctOptions_of_notMem {k : String} (hk : k ∉ keys) (hs : k ≠ simulationKey) :
    (correctOptions defaults registration id s).2.find? k = s.find? k := by
  rw [correctOptions, find?_applySimulation, if_neg hs, find?_applyKeys nodup_keys, if_neg hk]

/-- What becomes of an entry: one that is reserved or of no governed key stays, as does one without
a default; any other gives way to its default. -/
def renewed (defaults : OptionSet) (e : OptionEntry) : OptionEntry :=
  if Reserved e ∨ e.key ∉ keys then e
  else match defaults.find? e.key with
    | some d => { d with flags := { d.flags with automatic := true } }
    | none => e

def appended (defaults : OptionSet) (registration : Path) (s : OptionSet) : List OptionEntry :=
  keys.filterMap (fun k =>
      if (s.find? k).isSome then none
      else (defaults.find? k).map fun d =>
        { d with flags := { d.flags with automatic := true } }) ++
    (if (s.find? simulationKey).isSome then none
      else (defaults.text? proofKey).map fun profile => {
        registration := (registration.join simulationKey).text
        value := .profiles [profile]
        source := .defaults
        flags := { automatic := true } }).toList

lemma find?_correctOptions_key (hs : s.keys.Nodup) {e : OptionEntry} (he : e ∈ s.entries) :
    (correctOptions defaults registration id s).2.find? e.key = some (renewed defaults e) := by
  have hf := OptionSet.find?_of_mem hs he
  by_cases hk : e.key ∈ keys
  · rw [find?_correctOptions hk, hf, renewed]
    by_cases hp : Reserved e
    · rw [settled_of_protected (by simpa [isProtected_eq] using hp), if_pos (.inl hp)]
    · rw [settled_of_free (by simpa [isProtected_eq] using hp), if_neg (by simp [hp, hk])]
      cases defaults.find? e.key <;> rfl
  · rw [renewed, if_pos (.inr hk)]
    by_cases hsim : e.key = simulationKey
    · rw [hsim, find?_correctOptions_simulationKey, ← hsim, hf]
      rfl
    · rw [find?_correctOptions_of_notMem hk hsim, hf]

lemma filterMap_supplied : (keys.filter (supplies defaults s)).filterMap
      (correctOptions defaults registration id s).2.find? =
    keys.filterMap fun k =>
      if (s.find? k).isSome then none
      else (defaults.find? k).map fun d =>
        { d with flags := { d.flags with automatic := true } } := by
  rw [List.filterMap_filter]
  refine List.filterMap_congr fun k hk => ?_
  rw [find?_correctOptions hk, supplies]
  cases hf : s.find? k with
  | some e => rfl
  | none => cases hd : defaults.find? k <;> simp [settled, automatic]

lemma filterMap_suppliedSimulation :
    (if suppliesSimulation defaults s then [simulationKey] else []).filterMap
      (correctOptions defaults registration id s).2.find? =
    (if (s.find? simulationKey).isSome then none
      else (defaults.text? proofKey).map fun profile => {
        registration := (registration.join simulationKey).text
        value := .profiles [profile]
        source := .defaults
        flags := { automatic := true } }).toList := by
  have hf := @find?_correctOptions_simulationKey defaults s registration id
  rw [suppliesSimulation]
  cases hs : s.find? simulationKey with
  | some e => rfl
  | none => cases ht : defaults.text? proofKey <;> simp [hf, hs, ht, simulation, automatic]

theorem entries_correctOptions (hs : s.keys.Nodup) :
    (correctOptions defaults registration id s).2.entries =
      s.entries.map (renewed defaults) ++ appended defaults registration s := by
  rw [OptionSet.entries_eq (nodup_correctOptions hs), keys_correctOptions, List.filterMap_append,
    List.filterMap_append, filterMap_supplied, filterMap_suppliedSimulation, appended,
    List.append_assoc]
  congr 1
  have hm : s.entries.map (renewed defaults) =
      s.entries.filterMap fun e => some (renewed defaults e) := by simp
  rw [OptionSet.keys, List.filterMap_map, hm]
  refine List.filterMap_congr fun e he => ?_
  rw [Function.comp_apply, find?_correctOptions_key hs he]

section Report

def reported : List String := keys ++ [simulationKey]

def finding (defaults s : OptionSet) (key : String) : OptionChange :=
  if key = simulationKey then simulated defaults s else outcome defaults s key

lemma nodup_reported : reported.Nodup := by decide

lemma finding_of_mem (hk : key ∈ keys) : finding defaults s key = outcome defaults s key :=
  if_neg (ne_of_mem_of_not_mem hk simulationKey_notMem)

lemma filter_finding (c : OptionChange) : reported.filter (finding defaults s · = c) =
    keys.filter (outcome defaults s · = c) ++
      if simulated defaults s = c then [simulationKey] else [] := by
  rw [reported, List.filter_append]
  refine congrArg₂ (· ++ ·) ?_ ?_
  · exact List.filter_congr fun k hk => by rw [finding_of_mem hk]
  · simp [List.filter_singleton, finding]

lemma changed_eq : (correctOptions defaults registration id s).1.changed =
    reported.filter (finding defaults s · = .changed) := by
  rw [changed_correctOptions, filter_finding]

lemma missing_eq : (correctOptions defaults registration id s).1.missing =
    reported.filter (finding defaults s · = .missing) := by
  rw [missing_correctOptions, filter_finding]

lemma kept_eq : (correctOptions defaults registration id s).1.kept =
    reported.filter (finding defaults s · = .kept) := by
  rw [kept_correctOptions, filter_finding, if_neg (simulated_ne_kept defaults s), List.append_nil]

lemma disjoint_filter {f : String → OptionChange} {a b : OptionChange} (h : a ≠ b)
    (ks : List String) : (ks.filter (f · = a)).Disjoint (ks.filter (f · = b)) := by
  intro k ha hb
  have ha : f k = a := by simpa using (List.mem_filter.1 ha).2
  have hb : f k = b := by simpa using (List.mem_filter.1 hb).2
  exact h (ha.symm.trans hb)

lemma nodup_report : ((correctOptions defaults registration id s).1.changed ++
    (correctOptions defaults registration id s).1.kept ++
    (correctOptions defaults registration id s).1.missing).Nodup := by
  rw [changed_eq, kept_eq, missing_eq]
  refine ((nodup_reported.filter _).append (nodup_reported.filter _) ?_).append
    (nodup_reported.filter _) ?_
  · exact disjoint_filter (by decide) _
  · rw [List.disjoint_append_left]
    exact ⟨disjoint_filter (by decide) _, disjoint_filter (by decide) _⟩

def unlike : OptionValue → OptionValue → Bool
  | .int m, .int n => m != n
  | .double x, .double y => !(x == y)
  | .text s, .text t => s != t
  | .profiles ps, .profiles qs => ps != qs
  | _, _ => true

def differ : Option OptionValue → Option OptionValue → Bool
  | some v, some w => unlike v w
  | none, none => false
  | _, _ => true

lemma unlike_eq (v w : OptionValue) : unlike v w = !v.same w := by
  cases v <;> cases w <;> rfl

lemma differ_some (v w : OptionValue) : differ (some v) (some w) = !v.same w := unlike_eq v w

def brings (defaults s : OptionSet) (key : String) : Bool :=
  if key = simulationKey then (s.find? key).isNone && (defaults.text? proofKey).isSome
  else !(s.find? key).any (Reserved ·) && (defaults.find? key).isSome

lemma finding_eq_changed (hk : key ∈ reported) : finding defaults s key = .changed ↔
    (brings defaults s key && differ (s.value? key)
      ((correctOptions defaults registration id s).2.value? key)) = true := by
  rcases List.mem_append.1 hk with hk | hk
  · have hne := ne_of_mem_of_not_mem hk simulationKey_notMem
    rw [finding_of_mem hk, outcome, verdict_eq_changed, brings, if_neg hne, any_reserved,
      OptionSet.value?, OptionSet.value?, find?_correctOptions hk]
    cases he : (s.find? key).any (·.isProtected) with
    | true => simp
    | false =>
      rw [settled_of_free he]
      cases defaults.find? key with
      | none => simp
      | some d =>
        cases s.find? key with
        | none => simp [differ]
        | some e => simp [differ_some, automatic]
  · obtain rfl := List.mem_singleton.1 hk
    rw [finding, if_pos rfl, simulated, brings, if_pos rfl, OptionSet.value?, OptionSet.value?,
      find?_correctOptions_simulationKey]
    cases s.find? simulationKey with
    | some e => simp
    | none => cases defaults.text? proofKey <;> simp [differ]

lemma changed_of_differ : (correctOptions defaults registration id s).1.changed =
    reported.filter fun k => brings defaults s k && differ (s.value? k)
      ((correctOptions defaults registration id s).2.value? k) := by
  rw [changed_eq]
  refine List.filter_congr fun k hk => ?_
  rw [Bool.eq_iff_iff, decide_eq_true_iff]
  exact finding_eq_changed hk

lemma kept_of_reserved : (correctOptions defaults registration id s).1.kept =
    keys.filter fun k => (s.find? k).any (Reserved ·) := by
  rw [kept_correctOptions]
  refine List.filter_congr fun k _ => ?_
  rw [Bool.eq_iff_iff, decide_eq_true_iff, outcome, verdict_eq_kept, any_reserved]

lemma missing_of_none : (correctOptions defaults registration id s).1.missing =
    keys.filter (fun k => !(s.find? k).any (Reserved ·) && (defaults.find? k).isNone) ++
      if (s.find? simulationKey).isNone && (defaults.text? proofKey).isNone then [simulationKey]
      else [] := by
  rw [missing_correctOptions]
  refine congrArg₂ (· ++ ·) (List.filter_congr fun k _ => ?_) ?_
  · rw [Bool.eq_iff_iff, decide_eq_true_iff, outcome, verdict_eq_missing, any_reserved]
    simp
  · rw [simulated]
    cases s.find? simulationKey <;> cases defaults.text? proofKey <;> simp

lemma find?_of_not_brings (h : brings defaults s key = false) :
    (correctOptions defaults registration id s).2.find? key = s.find? key := by
  by_cases hsim : key = simulationKey
  · subst hsim
    rw [brings, if_pos rfl] at h
    rw [find?_correctOptions_simulationKey]
    cases hf : s.find? simulationKey with
    | some e => rfl
    | none =>
      rw [hf] at h
      cases ht : defaults.text? proofKey with
      | none => rfl
      | some profile => simp [ht] at h
  · rw [brings, if_neg hsim, any_reserved] at h
    by_cases hk : key ∈ keys
    · rw [find?_correctOptions hk]
      cases he : (s.find? key).any (·.isProtected) with
      | true => exact settled_of_protected he
      | false =>
        rw [settled_of_free he]
        cases hd : defaults.find? key with
        | none => rfl
        | some d => simp [he, hd] at h
    · exact find?_correctOptions_of_notMem hk hsim

lemma differ_self {v : Option OptionValue} (h : ∀ x ∈ v, x.isNaN = false) :
    differ v v = false := by
  cases v with
  | none => rfl
  | some x => rw [differ_some, OptionValue.same_self, h x rfl, Bool.not_false, Bool.not_true]

lemma changed_of_number (hs : ∀ e ∈ s.entries, e.value.isNaN = false) :
    (correctOptions defaults registration id s).1.changed =
      reported.filter fun k => differ (s.value? k)
        ((correctOptions defaults registration id s).2.value? k) := by
  rw [changed_of_differ]
  refine List.filter_congr fun k _ => ?_
  cases hb : brings defaults s k with
  | true => rfl
  | false =>
    rw [OptionSet.value?, OptionSet.value?, find?_of_not_brings hb, differ_self]
    · rfl
    · intro x hx
      obtain ⟨e, he, rfl⟩ := Option.map_eq_some_iff.1 hx
      exact hs e (List.mem_of_find?_eq_some he)

end Report

variable {net : Network} {scope : Scope} {c : Conversion} {declared : OptionSet}
  {source : DefaultsSource}

/-- One pass touches nothing but the options of the stage found, and these only where policy
governs and may; its report tells what it did. -/
theorem correct_extent (net : Network) (c : Conversion) (declared : OptionSet)
    (source : DefaultsSource) (scope : Scope) :
    (subject? net scope c = none → correct net c declared source scope = ({}, net)) ∧
    ∀ t, subject? net scope c = some t → t.options.keys.Nodup →
      let D := effectiveDefaults t declared source .all
      let r := (correct net c declared source scope).1
      ∃ o : OptionSet,
        (∀ j, (correct net c declared source scope).2.find? j = (net.find? j).map fun s =>
          if s.id = t.id then { s with options := o } else s) ∧
        o.entries = t.options.entries.map (renewed D) ++ appended D t.registration t.options ∧
        r.stage = some t.id ∧ r.error = false ∧
        (r.changed ++ r.kept ++ r.missing).Nodup ∧
        (r.changed = reported.filter fun k =>
          brings D t.options k && differ (t.options.value? k) (o.value? k)) ∧
        ((∀ e ∈ t.options.entries, e.value.isNaN = false) →
          r.changed = reported.filter fun k => differ (t.options.value? k) (o.value? k)) ∧
        (r.kept = keys.filter fun k => (t.options.find? k).any (Reserved ·)) ∧
        r.missing =
          keys.filter (fun k => !(t.options.find? k).any (Reserved ·) && (D.find? k).isNone) ++
          if (t.options.find? simulationKey).isNone && (D.text? proofKey).isNone then
            [simulationKey]
          else [] := by
  refine ⟨correct_of_none, fun t ht hn => ?_⟩
  rw [correct_of_some ht]
  generalize effectiveDefaults t declared source .all = D
  dsimp only
  refine ⟨(correctOptions D t.registration t.id t.options).2,
    fun j => Network.find?_setOptions j, entries_correctOptions hn, ?_, ?_, ?_, ?_, ?_, ?_, ?_⟩
  · exact stage_correctOptions
  · exact error_correctOptions
  · exact nodup_report
  · exact changed_of_differ
  · exact changed_of_number
  · exact kept_of_reserved
  · exact missing_of_none

def touched : OptionSet :=
  ⟨[{ registration := "icc.transform/gain", value := .double 2 },
    { registration := "org/tincture/colour/icc.transform/rendering_intent", value := .int 0,
      source := .defaults, flags := { automatic := true } },
    { registration := "icc/proof_soft", value := .int 1, source := .user },
    { registration := "org/tincture/colour/icc.transform/proof_hard", value := .double (0 / 0),
      source := .defaults, flags := { automatic := true } },
    { registration := "org/tincture/colour/icc.transform/rendering_bpc", value := .int 1,
      source := .defaults, flags := { locked := true, automatic := true } },
    { registration := "org/tincture/colour/icc.transform/profiles_simulation",
      value := .profiles ["a.icc"], source := .defaults, flags := { automatic := true } }]⟩

theorem correct_extent_preset :
    let r := correct (pair preset) { output := some 1 } mixedDefaults (.fixed .empty) {}
    r.2.find? 0 = some (transformStage touched) ∧ r.2.find? 1 = some outputStage ∧
      r.1.changed = ["proof_hard", "rendering_intent", "rendering_bpc", "profiles_simulation"] ∧
      r.1.kept = ["proof_soft"] ∧
      r.1.missing =
        ["rendering_intent_proof", "rendering_gamut_warning", "rendering_high_precision"] := by
  obtain ⟨o, hf, he, -, -, -, -, hchanged, hkept, hmissing⟩ := (correct_extent (pair preset)
    { output := some 1 } mixedDefaults (.fixed .empty) {}).2 _ (subject?_pair preset)
    (by decide +kernel)
  have ho : o.entries = touched.entries := he.trans (by decide +kernel)
  obtain rfl : o = touched := congrArg OptionSet.mk ho
  refine ⟨hf 0, hf 1, ?_, hkept.trans ?_, hmissing.trans ?_⟩
  · rw [hchanged (by decide +kernel)]
    decide +kernel
  · decide +kernel
  · decide +kernel

def unclear : OptionSet :=
  .ofList [
    { registration := "icc/proof_soft", value := .double (0 / 0), source := .user },
    { registration := "icc/proof_hard", value := .double (0 / 0) }]

def unclearDefault : OptionSet :=
  .ofList [{ registration := "icc/proof_hard", value := .double (0 / 0) }]

def valueAt (net : Network) (id : StageId) (key : String) : Option OptionValue :=
  (net.find? id).bind (·.options.value? key)

/-- Of two keys with the same values before and the same values after a pass, one is told to have
changed, as a double that is not a number differs from its default; so what has changed cannot be
told from the values. -/
theorem not_changed_iff_differs :
    let r := correct (pair unclear) { output := some 1 } unclearDefault (.fixed .empty) {}
    ¬ ∃ differs : Option OptionValue → Option OptionValue → Prop, ∀ k ∈ keys,
      k ∈ r.1.changed ↔ differs (valueAt (pair unclear) 0 k) (valueAt r.2 0 k) := by
  rintro r ⟨differs, h⟩
  have hr : r = _ := correct_of_some (subject?_pair unclear)
  have hsoft := h "proof_soft" (by decide)
  have hhard := h "proof_hard" (by decide)
  have hv : valueAt (pair unclear) 0 "proof_soft" = valueAt (pair unclear) 0 "proof_hard" := by
    decide +kernel
  have hw : valueAt r.2 0 "proof_soft" = valueAt r.2 0 "proof_hard" := by
    rw [hr]
    decide +kernel
  have hc : "proof_hard" ∈ r.1.changed ∧ "proof_soft" ∉ r.1.changed := by
    rw [hr]
    decide +kernel
  rw [← hv, ← hw] at hhard
  exact hc.2 (hsoft.2 (hhard.1 hc.1))

end Policy

end ColourPipeline
