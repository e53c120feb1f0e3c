import ColourPipeline.Work
import Mathlib

/-! What composed steps come to, read off their outcome. -/

namespace ColourPipeline

lemma Stop.sum_of_lt {values a b : ℕ} (h : a + b < values) : sum values a b = .ok (a + b) :=
  if_pos h

lemma Stop.sum_of_le {values a b : ℕ} (h : values ≤ a + b) : sum values a b = .error .overflow :=
  if_neg (not_lt.2 h)

namespace Work

variable {ε σ τ α β : Type} {s u : σ} {b : β} {e : ε}

def left : EStateM.Result ε σ α → σ
  | .ok _ s => s
  | .error _ s => s

def outcome : EStateM.Result ε σ α → Except ε α
  | .ok a _ => .ok a
  | .error e _ => .error e

lemma of_outcome_ok {r : EStateM.Result ε σ α} {a : α} (h : outcome r = .ok a) :
    ∃ u, r = .ok a u := by
  cases r with
  | ok a u =>
    cases h
    exact ⟨u, rfl⟩
  | error e u => cases h

lemma of_outcome_error {r : EStateM.Result ε σ α} (h : outcome r = .error e) :
    ∃ u, r = .error e u := by
  cases r with
  | ok a u => cases h
  | error e u =>
    cases h
    exact ⟨u, rfl⟩

lemma of_bind_ok {m : Work ε σ α} {f : α → Work ε σ β} (h : (m >>= f) s = .ok b u) :
    ∃ a v, m s = .ok a v ∧ f a v = .ok b u := by
  change EStateM.bind m f s = .ok b u at h
  rw [EStateM.bind] at h
  cases hm : m s with
  | ok a v => exact ⟨a, v, rfl, by rwa [hm] at h⟩
  | error e v =>
    rw [hm] at h
    cases h

lemma of_bind_error {m : Work ε σ α} {f : α → Work ε σ β} (h : (m >>= f) s = .error e u) :
    m s = .error e u ∨ ∃ a v, m s = .ok a v ∧ f a v = .error e u := by
  change EStateM.bind m f s = .error e u at h
  rw [EStateM.bind] at h
  cases hm : m s with
  | ok a v => exact .inr ⟨a, v, rfl, by rwa [hm] at h⟩
  | error e' v =>
    rw [hm] at h
    cases h
    exact .inl rfl

lemma of_lift_bind_ok {r : Except ε α} {f : α → Work ε σ β}
    (h : (lift r >>= f) s = .ok b u) : ∃ a, r = .ok a ∧ f a s = .ok b u := by
  cases r with
  | ok a => exact ⟨a, rfl, h⟩
  | error e => cases h

lemma of_check_bind_ok {b : β} {r : Except PipelineError α} {f : α → Work Stop σ β}
    (h : (check r >>= f) s = .ok b u) : ∃ a, r = .ok a ∧ f a s = .ok b u := by
  cases r with
  | ok a => exact ⟨a, rfl, h⟩
  | error e => cases h

lemma of_check_bind_error {e : Stop} {r : Except PipelineError α} {f : α → Work Stop σ β}
    (h : (check r >>= f) s = .error e u) :
    (∃ e', r = .error e' ∧ e = .error e' ∧ u = s) ∨ ∃ a, r = .ok a ∧ f a s = .error e u := by
  cases r with
  | ok a => exact .inr ⟨a, rfl, h⟩
  | error e' =>
    cases h
    exact .inl ⟨e', rfl, rfl, rfl⟩

lemma of_counting_ok {a : α} {w : Work PipelineError σ α} (h : counting w s = .ok a u) :
    w s = .ok a u := by
  rw [counting] at h
  cases hw : w s with
  | ok b t =>
    rw [hw] at h
    cases h
    rfl
  | error e t =>
    rw [hw] at h
    cases h

lemma of_counting_error {e : Stop} {w : Work PipelineError σ α} (h : counting w s = .error e u) :
    ∃ e', w s = .error e' u ∧ e = .error e' := by
  rw [counting] at h
  cases hw : w s with
  | ok b t =>
    rw [hw] at h
    cases h
  | error e' t =>
    rw [hw] at h
    cases h
    exact ⟨e', rfl, rfl⟩

lemma of_on_ok {get : σ → τ} {put : τ → σ → σ} {w : Work ε τ α} {a : α}
    (h : on get put w s = .ok a u) : ∃ t, w (get s) = .ok a t ∧ u = put t s := by
  rw [on] at h
  cases hw : w (get s) with
  | ok b t =>
    rw [hw] at h
    cases h
    exact ⟨t, rfl, rfl⟩
  | error e t =>
    rw [hw] at h
    cases h

lemma of_on_error {get : σ → τ} {put : τ → σ → σ} {w : Work ε τ α}
    (h : on get put w s = .error e u) : ∃ t, w (get s) = .error e t ∧ u = put t s := by
  rw [on] at h
  cases hw : w (get s) with
  | ok b t =>
    rw [hw] at h
    cases h
  | error e' t =>
    rw [hw] at h
    cases h
    exact ⟨t, rfl, rfl⟩

end Work

end ColourPipeline
