import ColourPipeline.Proofs.Host.Load
import ColourPipeline.Proofs.Policy.Validation

namespace ColourPipeline.Host

variable {h : Host} {c : Conversion} {request : OptionSet} {p : Pipeline} {rule : PolicyRule}

def Governed (h : Host) : Prop :=
  ∃ q ∈ h.registry.providers, q.category = .policy ∧
    (Path.parse h.config.policyPattern).selects q.registration

lemma policy_eq_error {r : Registry} {pattern : String} {e : PipelineError}
    (he : r.first pattern .policy = .error e) : e = .providerNotFound pattern .policy := by
  rw [Registry.first] at he
  split at he <;> cases he
  rfl

lemma exists_rule {q : Provider} (hq : q.category = .policy) : ∃ rule, q.rule = .ok rule := by
  rw [Provider.category] at hq
  rw [Provider.rule]
  cases hs : q.service with
  | policy rule => exact ⟨rule, rfl⟩
  | profiles => rw [hs] at hq; cases hq
  | tags => rw [hs] at hq; cases hq
  | filter f => rw [hs] at hq; cases hq

lemma rule_cases (h : Host) :
    (¬ h.Governed ∧ h.rule = .error (.providerNotFound h.config.policyPattern .policy)) ∨
      h.Governed ∧ ∃ rule, h.rule = .ok rule := by
  have herror := @Registry.first_eq_error_iff h.registry h.config.policyPattern .policy
  rw [rule, policy]
  cases hf : h.registry.first h.config.policyPattern .policy with
  | error e =>
    have hnone := herror.1 ⟨e, hf⟩
    rw [policy_eq_error hf]
    exact .inl ⟨fun ⟨q, hq, hc, hs⟩ => hnone q hq hc hs, rfl⟩
  | ok q =>
    obtain ⟨-, hc⟩ := Registry.first_eq_ok hf
    refine .inr ⟨?_, exists_rule hc⟩
    by_contra hn
    obtain ⟨e, he⟩ := herror.2 fun q hq hc hs => hn ⟨q, hq, hc, hs⟩
    cases hf.symm.trans he

def told (rule : PolicyRule) (ms : List Policy.Message) (p : Pipeline) : Pipeline :=
  if rule.heard then ms.foldl (fun p m => p.report (.told m)) p else p

lemma network_told (rule : PolicyRule) (ms : List Policy.Message) (p : Pipeline) :
    (told rule ms p).network = p.network := by
  rw [told]
  split
  · induction ms generalizing p with
    | nil => rfl
    | cons m ms ih => exact ih (p.report (.told m))
  · rfl

lemma correct_of_no_rule {e : PipelineError} (hr : h.rule = .error e) :
    h.correct c request p = .error e p := by
  rw [correct, hr]
  rfl

lemma correct_of_refused {key reason : String} (hr : h.rule = .ok rule)
    (hv : Policy.refusal? request = some (key, reason)) :
    h.correct c request p = .error (.invalidOption key reason)
      (told rule [⟨.warning, "option " ++ key ++ ": " ++ reason⟩] p) := by
  rw [correct, hr, Policy.validate, hv]
  rfl

lemma correct_of_allowed (hr : h.rule = .ok rule) (hv : Policy.refusal? request = none) :
    let r := Policy.correct p.network c Policy.declared h.defaults
      ⟨rule.pattern, h.config.dataCategory⟩
    h.correct c request p =
      .ok r.1 (told rule (Policy.complaints r.1) { told rule [] p with network := r.2 }) := by
  have hn : (told rule [] p).network = p.network := network_told rule [] p
  rw [correct, hr, Policy.validate, hv, ← hn]
  rfl

/-- A correction fails exactly for want of a policy or of an acceptable request, and then nothing
has been changed: of what is wrong with a request the first is named, in one warning. -/
theorem correct_fails_iff (h : Host) (c : Conversion) (request : OptionSet) (p : Pipeline) :
    ((∃ e u, h.correct c request p = .error e u) ↔
        ¬ h.Governed ∨ ¬ Policy.Acceptable request) ∧
      (h.Governed → Policy.Acceptable request → ∃ rule, h.rule = .ok rule ∧
        let r := Policy.correct p.network c Policy.declared h.defaults
          ⟨rule.pattern, h.config.dataCategory⟩
        ∃ u, h.correct c request p = .ok r.1 u ∧ u.network = r.2) ∧
      ∀ e u, h.correct c request p = .error e u → u.network = p.network ∧
        ((¬ h.Governed ∧ e = .providerNotFound h.config.policyPattern .policy ∧ u = p) ∨
          ∃ rule key reason, h.rule = .ok rule ∧ Policy.FirstOffending request key ∧
            e = .invalidOption key reason ∧ u = if rule.heard then
              p.report (.told ⟨.warning, "option " ++ key ++ ": " ++ reason⟩) else p) := by
  rcases rule_cases h with ⟨hg, hr⟩ | ⟨hg, rule, hr⟩
  · have hc : h.correct c request p = _ := correct_of_no_rule hr
    rw [hc]
    refine ⟨iff_of_true ⟨_, _, rfl⟩ (.inl hg), fun hn => absurd hn hg, fun e u he => ?_⟩
    cases he
    exact ⟨rfl, .inl ⟨hg, rfl, rfl⟩⟩
  · cases hv : Policy.refusal? request with
    | some refusal =>
      obtain ⟨key, reason⟩ := refusal
      have hfirst := Policy.firstOffending_of_refusal? hv
      have hc : h.correct c request p = _ := correct_of_refused hr hv
      rw [hc]
      refine ⟨iff_of_true ⟨_, _, rfl⟩ (.inr hfirst.not_acceptable),
        fun _ ha => absurd ha hfirst.not_acceptable, fun e u he => ?_⟩
      cases he
      exact ⟨network_told _ _ _, .inr ⟨rule, key, reason, hr, hfirst, rfl, rfl⟩⟩
    | none =>
      have ha := Policy.refusal?_eq_none_iff.1 hv
      have hc : h.correct c request p = _ := correct_of_allowed hr hv
      rw [hc]
      refine ⟨iff_of_false (fun ⟨_, _, he⟩ => by cases he) ?_,
        fun _ _ => ⟨rule, hr, _, rfl, network_told _ _ _⟩, fun e u he => by cases he⟩
      rintro (hn | hn)
      · exact hn hg
      · exact hn ha

end ColourPipeline.Host
