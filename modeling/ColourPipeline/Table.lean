namespace ColourPipeline

abbrev Table (κ α : Type) := List (κ × α)

namespace Table

variable {κ α : Type} [DecidableEq κ]

def put (k : κ) (a : α) : Table κ α → Table κ α
  | [] => [(k, a)]
  | (l, b) :: t => if l = k then (k, a) :: t else (l, b) :: put k a t

def remove (k : κ) (t : Table κ α) : Table κ α := t.filter (·.1 ≠ k)

@[simp] theorem lookup_put_self (k : κ) (a : α) (t : Table κ α) :
    (t.put k a).lookup k = some a := by
  induction t with
  | nil => simp [put]
  | cons e t ih =>
    obtain ⟨l, b⟩ := e
    by_cases h : l = k
    · simp [put, h]
    · simp [put, h, List.lookup_cons, beq_eq_false_iff_ne.2 (Ne.symm h), ih]

theorem lookup_put_of_ne {j k : κ} (h : j ≠ k) (a : α) (t : Table κ α) :
    (t.put k a).lookup j = t.lookup j := by
  induction t with
  | nil => simp [put, beq_eq_false_iff_ne.2 h, List.lookup_cons]
  | cons e t ih =>
    obtain ⟨l, b⟩ := e
    by_cases hl : l = k
    · subst hl
      simp [put, List.lookup_cons, beq_eq_false_iff_ne.2 h]
    · simp [put, hl, List.lookup_cons, ih]

theorem lookup_filter (keep : κ → Bool) (k : κ) (t : Table κ α) :
    List.lookup k (t.filter (keep ·.1)) = if keep k then t.lookup k else none := by
  induction t with
  | nil => simp
  | cons e t ih =>
    obtain ⟨l, b⟩ := e
    by_cases h : k = l
    · subst h
      by_cases hk : keep k = true <;> simp [hk, ih]
    · by_cases hl : keep l = true <;>
        simp [hl, List.lookup_cons, beq_eq_false_iff_ne.2 h, ih]

@[simp] theorem lookup_remove_self (k : κ) (t : Table κ α) : (t.remove k).lookup k = none := by
  have h := lookup_filter (fun l => decide (l ≠ k)) k t
  rwa [if_neg (by simp)] at h

theorem lookup_remove_of_ne {j k : κ} (h : j ≠ k) (t : Table κ α) :
    (t.remove k).lookup j = t.lookup j := by
  have hl := lookup_filter (fun l => decide (l ≠ k)) j t
  rwa [if_pos (by simpa using h)] at hl

theorem keys_put (k : κ) (a : α) (t : Table κ α) :
    (t.put k a).map (·.1) = if k ∈ t.map (·.1) then t.map (·.1) else t.map (·.1) ++ [k] := by
  induction t with
  | nil => simp [put]
  | cons e t ih =>
    obtain ⟨l, b⟩ := e
    by_cases h : l = k
    · simp [put, h]
    · rw [put, if_neg h, List.map_cons, ih]
      by_cases hk : k ∈ t.map (·.1) <;> simp [hk, Ne.symm h]

theorem mem_keys_put {j k : κ} {a : α} {t : Table κ α} :
    j ∈ (t.put k a).map (·.1) ↔ j = k ∨ j ∈ t.map (·.1) := by
  rw [keys_put]
  split
  · rename_i hk
    exact ⟨.inr, fun h => h.elim (fun hj => hj ▸ hk) fun hj => hj⟩
  · rw [List.mem_append, List.mem_singleton, or_comm]

theorem nodup_keys_put {t : Table κ α} (h : (t.map (·.1)).Nodup) (k : κ) (a : α) :
    ((t.put k a).map (·.1)).Nodup := by
  rw [keys_put]
  split
  · exact h
  · rename_i hk
    rw [List.nodup_append]
    refine ⟨h, by simp, fun j hj l hl hjl => hk ?_⟩
    rwa [← List.mem_singleton.1 hl, ← hjl]

theorem lookup_of_mem {t : Table κ α} (h : (t.map (·.1)).Nodup) {k : κ} {a : α} (hm : (k, a) ∈ t) :
    t.lookup k = some a := by
  induction t with
  | nil => cases hm
  | cons e t ih =>
    obtain ⟨hk, ht⟩ := List.nodup_cons.1 h
    rcases List.mem_cons.1 hm with rfl | hm
    · simp
    · have hne : k ≠ e.1 := by
        rintro rfl
        exact hk (List.mem_map.2 ⟨_, hm, rfl⟩)
      rw [List.lookup_cons, beq_eq_false_iff_ne.2 hne]
      exact ih ht hm

theorem remove_of_lookup {t : Table κ α} {k : κ} (h : t.lookup k = none) : t.remove k = t := by
  rw [List.lookup_eq_none_iff] at h
  exact List.filter_eq_self.2 fun e he => by simpa using (Ne.symm (by simpa using h e he))

theorem perm_remove {t : Table κ α} (h : (t.map (·.1)).Nodup) {k : κ} {a : α}
    (hl : t.lookup k = some a) : t.Perm ((k, a) :: t.remove k) := by
  induction t with
  | nil => cases hl
  | cons e t ih =>
    obtain ⟨l, b⟩ := e
    obtain ⟨hn, ht⟩ := List.nodup_cons.1 h
    by_cases hk : k = l
    · subst hk
      obtain rfl : b = a := by simpa using hl
      have hr : remove k ((k, b) :: t) = t := by
        have hc : remove k ((k, b) :: t) = remove k t := List.filter_cons_of_neg (by simp)
        rw [hc]
        refine remove_of_lookup (List.lookup_eq_none_iff.2 fun p hp => ?_)
        have hne : k ≠ p.1 := fun hkp => hn (hkp ▸ List.mem_map.2 ⟨p, hp, rfl⟩)
        simpa using hne
      rw [hr]
    · rw [List.lookup_cons, beq_eq_false_iff_ne.2 hk] at hl
      have hr : remove k ((l, b) :: t) = (l, b) :: remove k t := by simp [remove, Ne.symm hk]
      rw [hr]
      exact ((ih ht hl).cons (l, b)).trans (.swap ..)

theorem exists_perm_put (k : κ) (a : α) (t : Table κ α) : ∃ rest : Table κ α,
    (t.put k a).Perm ((k, a) :: rest) ∧ t.Perm (((t.lookup k).map (k, ·)).toList ++ rest) := by
  induction t with
  | nil => exact ⟨[], .refl _, .refl _⟩
  | cons e t ih =>
    obtain ⟨l, b⟩ := e
    by_cases hk : k = l
    · subst hk
      exact ⟨t, by simp [put], by simp⟩
    · obtain ⟨rest, hp, ht⟩ := ih
      refine ⟨(l, b) :: rest, ?_, ?_⟩
      · rw [put, if_neg (Ne.symm hk)]
        exact (hp.cons (l, b)).trans (.swap ..)
      · rw [List.lookup_cons, beq_eq_false_iff_ne.2 hk]
        exact (ht.cons (l, b)).trans List.perm_middle.symm

end Table

end ColourPipeline
