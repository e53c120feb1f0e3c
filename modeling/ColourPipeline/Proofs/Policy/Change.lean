import ColourPipeline.Policy.Correction
import ColourPipeline.Proofs.Options.Set
import ColourPipeline.Proofs.Registration

/-! What a correction comes to under one key. -/

namespace ColourPipeline.Policy

variable {defaults s : OptionSet} {key : String}

def Reserved (e : OptionEntry) : Prop :=
  e.source = .user ∨ e.source = .data ∨ e.flags.locked = true

instance : DecidablePred Reserved := fun _ => inferInstanceAs (Decidable (_ ∨ _ ∨ _))

lemma isProtected_eq (e : OptionEntry) : e.isProtected = decide (Reserved e) := by
  rw [Bool.eq_iff_iff, decide_eq_true_iff]
  simp [OptionEntry.isProtected, Reserved, or_assoc]

lemma any_reserved (e : Option OptionEntry) : e.any (Reserved ·) = e.any (·.isProtected) := by
  simp only [isProtected_eq]

lemma isProtected_automatic (d : OptionEntry) : (automatic d).isProtected = d.isProtected := rfl

lemma key_automatic (d : OptionEntry) : (automatic d).key = d.key := rfl

def verdict (d e : Option OptionEntry) : OptionChange :=
  if e.any (·.isProtected) then .kept
  else match d with
    | none => .missing
    | some d => if e.any (·.value.same d.value) then .unchanged else .changed

def settled (d e : Option OptionEntry) : Option OptionEntry :=
  if e.any (·.isProtected) then e else (d.map automatic).or e

section Entries

variable {d e : Option OptionEntry}

lemma verdict_eq_kept : verdict d e = .kept ↔ e.any (·.isProtected) = true := by
  simp only [verdict]
  split
  · simp_all
  · cases d with
    | none => simp_all
    | some d => dsimp only; split <;> simp_all

lemma verdict_eq_missing :
    verdict d e = .missing ↔ e.any (·.isProtected) = false ∧ d = none := by
  simp only [verdict]
  split
  · simp_all
  · cases d with
    | none => simp_all
    | some d => dsimp only; split <;> simp_all

lemma verdict_eq_changed : verdict d e = .changed ↔ e.any (·.isProtected) = false ∧
    ∃ x, d = some x ∧ e.any (·.value.same x.value) = false := by
  simp only [verdict]
  split
  · simp_all
  · cases d with
    | none => simp_all
    | some d => dsimp only; split <;> simp_all

lemma settled_of_protected (he : e.any (·.isProtected) = true) : settled d e = e := if_pos he

lemma settled_of_free (he : e.any (·.isProtected) = false) :
    settled d e = (d.map automatic).or e := if_neg (by simp [he])

lemma protected_settled : (settled d e).any (·.isProtected) =
    (e.any (·.isProtected) || d.any (·.isProtected)) := by
  cases he : e.any (·.isProtected) with
  | true => rw [settled_of_protected he, he, Bool.true_or]
  | false =>
    rw [settled_of_free he, Bool.false_or]
    cases d with
    | none => exact he
    | some d => exact isProtected_automatic d

lemma settled_settled : settled d (settled d e) = settled d e := by
  cases hs : (settled d e).any (·.isProtected) with
  | true => exact settled_of_protected hs
  | false =>
    rw [protected_settled, Bool.or_eq_false_iff] at hs
    rw [settled_of_free hs.1]
    cases d with
    | none => exact settled_of_free hs.1
    | some d => exact settled_of_free ((isProtected_automatic d).trans (by simpa using hs.2))

end Entries

lemma applyDefault_fst :
    (applyDefault defaults key s).1 = verdict (defaults.find? key) (s.find? key) := by
  unfold applyDefault verdict isProtectedAt OptionSet.value?
  split
  · rfl
  · cases defaults.find? key with
    | none => rfl
    | some d => simp [Option.any_map]

lemma find?_applyDefault (j : String) : (applyDefault defaults key s).2.find? j =
    if j = key then settled (defaults.find? key) (s.find? key) else s.find? j := by
  by_cases hp : (s.find? key).any (·.isProtected) = true
  · rw [applyDefault, isProtectedAt, if_pos hp, settled, if_pos hp]
    split
    · subst j
      rfl
    · rfl
  · rw [applyDefault, isProtectedAt, if_neg hp, settled, if_neg hp]
    cases hd : defaults.find? key with
    | none =>
      dsimp only
      split
      · subst j
        rfl
      · rfl
    | some d =>
      dsimp only
      rw [OptionSet.find?_insert, key_automatic, OptionSet.key_of_find? hd]
      rfl

lemma applyDefault_settled (h : settled (defaults.find? key) (s.find? key) = s.find? key) :
    (applyDefault defaults key s).2 = s := by
  by_cases hp : (s.find? key).any (·.isProtected) = true
  · rw [applyDefault, isProtectedAt, if_pos hp]
  · rw [applyDefault, isProtectedAt, if_neg hp]
    rw [settled, if_neg hp] at h
    cases hd : defaults.find? key with
    | none => rfl
    | some d =>
      apply OptionSet.insert_of_find?
      rw [key_automatic, OptionSet.key_of_find? hd, ← h, hd]
      rfl

def CorrectionReport.noteAll (r : CorrectionReport) (ks : List String)
    (change : String → OptionChange) : CorrectionReport where
  stage := r.stage
  changed := r.changed ++ ks.filter (change · = .changed)
  kept := r.kept ++ ks.filter (change · = .kept)
  missing := r.missing ++ ks.filter (change · = .missing)
  error := r.error

lemma noteAll_cons (r : CorrectionReport) (k : String) (ks : List String)
    (change : String → OptionChange) :
    r.noteAll (k :: ks) change = (r.note k (change k)).noteAll ks change := by
  simp only [CorrectionReport.noteAll]
  cases h : change k <;> simp [CorrectionReport.note, h]

lemma noteAll_congr (r : CorrectionReport) {ks : List String} {f g : String → OptionChange}
    (h : ∀ k ∈ ks, f k = g k) : r.noteAll ks f = r.noteAll ks g := by
  have hc (c : OptionChange) : ks.filter (f · = c) = ks.filter (g · = c) :=
    List.filter_congr fun k hk => by rw [h k hk]
  simp only [CorrectionReport.noteAll, hc]

variable {ks : List String} {r : CorrectionReport × OptionSet}

lemma find?_applyKeys (hk : ks.Nodup) (j : String) :
    (ks.foldl (applyKey defaults) r).2.find? j =
      if j ∈ ks then settled (defaults.find? j) (r.2.find? j) else r.2.find? j := by
  induction ks generalizing r with
  | nil => rfl
  | cons k ks ih =>
    obtain ⟨hn, hks⟩ := List.nodup_cons.1 hk
    rw [List.foldl_cons, ih hks]
    change (if j ∈ ks then settled _ ((applyDefault defaults k r.2).2.find? j)
      else (applyDefault defaults k r.2).2.find? j) = _
    rw [find?_applyDefault]
    by_cases hj : j = k
    · subst hj
      simp [hn]
    · simp [hj]

lemma applyKeys_fst (hk : ks.Nodup) : (ks.foldl (applyKey defaults) r).1 =
    r.1.noteAll ks fun k => verdict (defaults.find? k) (r.2.find? k) := by
  induction ks generalizing r with
  | nil => simp [CorrectionReport.noteAll]
  | cons k ks ih =>
    obtain ⟨hn, hks⟩ := List.nodup_cons.1 hk
    rw [List.foldl_cons, ih hks, noteAll_cons, ← applyDefault_fst]
    -- The entries under later keys are still those of the start, as no key comes twice.
    refine noteAll_congr _ fun j hj => ?_
    change verdict _ ((applyDefault defaults k r.2).2.find? j) = _
    rw [find?_applyDefault, if_neg (ne_of_mem_of_not_mem hj hn)]

lemma applyKeys_settled
    (h : ∀ k ∈ ks, settled (defaults.find? k) (r.2.find? k) = r.2.find? k) :
    (ks.foldl (applyKey defaults) r).2 = r.2 := by
  induction ks generalizing r with
  | nil => rfl
  | cons k ks ih =>
    have hs : (applyKey defaults r k).2 = r.2 := applyDefault_settled (h k List.mem_cons_self)
    rw [List.foldl_cons, ih, hs]
    intro j hj
    rw [hs]
    exact h j (List.mem_cons_of_mem _ hj)

end ColourPipeline.Policy
