import ColourPipeline.Decimal.Shortest
import ColourPipeline.Proofs.Decimal.Rounding

namespace ColourPipeline.Decimal

lemma length_digits_pos (n : ℕ) : 0 < (digits n).length := List.length_pos_iff.2 (digits_ne_nil n)

lemma lt_pow_length_digits (n : ℕ) : n < 10 ^ (digits n).length := by
  fun_induction digits n with
  | case1 n h => simpa using h
  | case2 n h ih =>
    rw [List.length_append, List.length_singleton, pow_succ]
    omega

lemma pow_length_digits_le {n : ℕ} (hn : 0 < n) : 10 ^ (digits n).length ≤ 10 * n := by
  fun_induction digits n with
  | case1 n h => simp; omega
  | case2 n h ih =>
    have := ih (by omega)
    rw [List.length_append, List.length_singleton, pow_succ]
    omega

lemma magnitude_le {num den : ℕ} (hn : 0 < num) (hd : 0 < den) :
    (10 : ℚ) ^ (magnitude num den - 1) ≤ num / den := by
  rw [le_div_iff₀ (by exact_mod_cast hd)]
  rw [magnitude]
  split
  · have hq : 0 < num / den := Nat.div_pos ‹_› hd
    have hl := length_digits_pos (num / den)
    have hp := pow_length_digits_le hq
    obtain ⟨k, hk⟩ : ∃ k, (digits (num / den)).length = k + 1 :=
      ⟨_, (Nat.succ_pred_eq_of_pos hl).symm⟩
    rw [hk] at hp ⊢
    have hle : 10 ^ k * den ≤ num := by
      rw [pow_succ] at hp
      exact (Nat.le_div_iff_mul_le hd).1 (by omega)
    simp only [Nat.cast_add, Nat.cast_one, add_sub_cancel_right, zpow_natCast]
    exact_mod_cast hle
  · have hlt := lt_pow_length_digits ((den - 1) / num)
    have hle : den ≤ num * 10 ^ (digits ((den - 1) / num)).length := by
      have := mul_comm num _ ▸ Nat.lt_mul_of_div_lt hlt hn
      omega
    have he (k : ℤ) : 1 - k - 1 = -k := by ring
    rw [he, zpow_neg, zpow_natCast, inv_mul_le_iff₀ (by positivity), mul_comm]
    exact_mod_cast hle

lemma zpow_mul_toNat (b : ℚ) (hb : b ≠ 0) (z : ℤ) : b ^ z * b ^ (-z).toNat = b ^ z.toNat := by
  rw [← zpow_natCast, ← zpow_natCast, ← zpow_add₀ hb]
  congr 1
  omega

structure Grid (e g : ℤ) (ulp den : ℕ) : Prop where
  den_pos : 0 < den
  ulp_pos : 0 < ulp
  scale : (2 : ℚ) ^ e * den = 10 ^ g * ulp

lemma grid (e g : ℤ) :
    Grid e g (2 ^ e.toNat * 10 ^ (-g).toNat) (2 ^ (-e).toNat * 10 ^ g.toNat) where
  den_pos := by positivity
  ulp_pos := by positivity
  scale := by
    push_cast
    rw [← zpow_mul_toNat 2 two_ne_zero e, ← zpow_mul_toNat 10 (by norm_num) g]
    ring

variable {m n ulp den : ℕ} {e g : ℤ}

lemma RoundsTo.of_gap {c k q : ℚ} (hc : 0 < c) (he : (2 : ℚ) ^ e = c * ulp)
    (hq : m * 2 ^ e - q = c * k) (ha : -(4 * k) ≤ 2 * ulp) (hb : 4 * k ≤ room m e * ulp)
    (hs : m % 2 = 1 → -(4 * k) < 2 * ulp ∧ 4 * k < room m e * ulp) : RoundsTo m e q := by
  have hup : 4 * (q - m * 2 ^ e) = c * -(4 * k) := by linear_combination -4 * hq
  have hlow : 4 * (m * 2 ^ e - q) = c * (4 * k) := by linear_combination 4 * hq
  refine ⟨?_, ?_, fun ho => ⟨?_, ?_⟩⟩
  · rw [hup, he]
    linarith [mul_le_mul_of_nonneg_left ha hc.le]
  · rw [hlow, he]
    linarith [mul_le_mul_of_nonneg_left hb hc.le]
  · rw [hup, he]
    linarith [mul_lt_mul_of_pos_left (hs ho).1 hc]
  · rw [hlow, he]
    linarith [mul_lt_mul_of_pos_left (hs ho).2 hc]

lemma Grid.exists_unit (h : Grid e g ulp den) :
    ∃ c : ℚ, 0 < c ∧ (2 : ℚ) ^ e = c * ulp ∧ (10 : ℚ) ^ g = c * den := by
  obtain ⟨hd, hu, hs⟩ := h
  have hd : (den : ℚ) ≠ 0 := by positivity
  refine ⟨10 ^ g / den, by positivity, ?_, (div_mul_cancel₀ _ hd).symm⟩
  field_simp
  linear_combination hs

lemma div_add_mod_cast (m ulp den : ℕ) :
    (den : ℚ) * (m * ulp / den : ℕ) + (m * ulp % den : ℕ) = m * ulp := by
  exact_mod_cast Nat.div_add_mod (m * ulp) den

lemma le_of_within {d r : ℕ} (h : within m ulp d r = true) : 4 * d ≤ r * ulp := by
  rw [within] at h
  split at h
  · simpa using h
  · exact (by simpa using h : _ < _).le

lemma lt_of_within {d r : ℕ} (h : within m ulp d r = true) (ho : m % 2 = 1) : 4 * d < r * ulp := by
  simpa [within, ho] using h

lemma le_of_not_within {d r : ℕ} (h : within m ulp d r = false) : r * ulp ≤ 4 * d := by
  rw [within] at h
  split at h
  · exact (by simpa using h : _ < _).le
  · simpa using h

lemma Grid.below (h : Grid e g ulp den) (hw : within m ulp (m * ulp % den) (room m e) = true) :
    RoundsTo m e ((m * ulp / den : ℕ) * 10 ^ g) := by
  obtain ⟨c, hc, he, hg⟩ := h.exists_unit
  have hu : (0 : ℚ) < ulp := by exact_mod_cast h.ulp_pos
  have hp : (0 : ℚ) ≤ (m * ulp % den : ℕ) := Nat.cast_nonneg _
  refine .of_gap (k := (m * ulp % den : ℕ)) hc he ?_ (by linarith)
    (by exact_mod_cast le_of_within hw)
    fun ho => ⟨by linarith, by exact_mod_cast lt_of_within hw ho⟩
  rw [he, hg]
  linear_combination -c * div_add_mod_cast m ulp den

lemma Grid.above (h : Grid e g ulp den) (hw : within m ulp (den - m * ulp % den) 2 = true) :
    RoundsTo m e ((m * ulp / den + 1 : ℕ) * 10 ^ g) := by
  obtain ⟨c, hc, he, hg⟩ := h.exists_unit
  have hp := Nat.mod_lt (m * ulp) h.den_pos
  have hd : ((den - m * ulp % den : ℕ) : ℚ) = den - (m * ulp % den : ℕ) := Nat.cast_sub hp.le
  have hd0 : (0 : ℚ) < (den - m * ulp % den : ℕ) := by exact_mod_cast Nat.sub_pos_of_lt hp
  have hu : (0 : ℚ) < ulp := by exact_mod_cast h.ulp_pos
  have hr : (0 : ℚ) ≤ room m e * ulp := by positivity
  refine .of_gap (k := -(den - m * ulp % den : ℕ)) hc he ?_ ?_ (by linarith)
    fun ho => ⟨?_, by linarith⟩
  · rw [he, hg, hd]
    push_cast
    linear_combination -c * div_add_mod_cast m ulp den
  · rw [mul_neg, neg_neg]
    exact_mod_cast le_of_within hw
  · rw [mul_neg, neg_neg]
    exact_mod_cast lt_of_within hw ho

lemma eq_of_nearer {tie : Tie} {below past ahead : ℕ} {down up : Bool}
    (h : nearer tie below past ahead down up = some n) :
    n = below ∧ down = true ∨ n = below + 1 ∧ up = true := by
  cases down <;> cases up
  · cases h
  · exact .inr ⟨(Option.some.inj h).symm, rfl⟩
  · exact .inl ⟨(Option.some.inj h).symm, rfl⟩
  · have hn : n = below ∨ n = below + 1 := by
      cases tie <;> simp only [nearer] at h <;> grind
    exact hn.imp (⟨·, rfl⟩) (⟨·, rfl⟩)

lemma of_nearer_none {tie : Tie} {below past ahead : ℕ} {down up : Bool}
    (h : nearer tie below past ahead down up = none) : down = false ∧ up = false := by
  cases down <;> cases up
  · exact ⟨rfl, rfl⟩
  · cases h
  · cases h
  · cases tie <;> simp only [nearer] at h <;> grind

lemma onGrid_roundsTo {tie : Tie} (h : onGrid tie m e g = some n) : RoundsTo m e (n * 10 ^ g) := by
  obtain ⟨rfl, hd⟩ | ⟨rfl, hu⟩ := eq_of_nearer h
  · exact (grid e g).below hd
  · exact (grid e g).above hu

lemma coarse_of_onGrid_none {tie : Tie} (h : onGrid tie m e g = none) :
    ((room m e : ℚ) + 2) * 2 ^ e ≤ 4 * 10 ^ g := by
  obtain ⟨hd, hu⟩ := of_nearer_none h
  have hg := grid e g
  obtain ⟨c, hc, he, hten⟩ := hg.exists_unit
  have hd := le_of_not_within hd
  have hu := le_of_not_within hu
  have hlt := Nat.mod_lt (m * (2 ^ e.toNat * 10 ^ (-g).toNat)) hg.den_pos
  simp only [Nat.pow_eq] at hd hu
  generalize 2 ^ e.toNat * 10 ^ (-g).toNat = ulp at *
  generalize 2 ^ (-e).toNat * 10 ^ g.toNat = den at *
  have hsum : (room m e + 2) * ulp ≤ 4 * den := by
    rw [add_mul]
    omega
  have hsum : ((room m e : ℚ) + 2) * ulp ≤ 4 * den := by exact_mod_cast hsum
  rw [he, hten]
  linarith [mul_le_mul_of_nonneg_left hsum hc.le]

lemma scaled_nat (m : ℕ) (e : ℤ) :
    ((m * 2 ^ e.toNat : ℕ) : ℚ) / (2 ^ (-e).toNat : ℕ) = m * 2 ^ e := by
  have hp : (2 : ℚ) ^ (-e).toNat ≠ 0 := by positivity
  push_cast
  rw [← zpow_mul_toNat 2 two_ne_zero e, ← mul_assoc, mul_div_cancel_right₀ _ hp]

lemma Canonical.exists_onGrid (h : Canonical m e) (tie : Tie) :
    ∃ n, onGrid tie m e (magnitude (m * 2 ^ e.toNat) (2 ^ (-e).toNat) - 17) = some n := by
  rw [← Option.ne_none_iff_exists']
  intro hn
  have hcoarse := coarse_of_onGrid_none hn
  have hle := magnitude_le (Nat.mul_pos h.pos (Nat.two_pow_pos e.toNat))
    (Nat.two_pow_pos (-e).toNat)
  rw [scaled_nat] at hle
  generalize magnitude (m * 2 ^ e.toNat) (2 ^ (-e).toNat) = top at hcoarse hle
  have hten : (10 : ℚ) ^ (top - 1) = 10 ^ 16 * 10 ^ (top - 17) := by
    rw [← zpow_natCast, ← zpow_add₀ (by norm_num)]
    congr 1
    push_cast
    ring
  have hp : (0 : ℚ) < 2 ^ e := by positivity
  have hbound : (10 ^ 16 * ((room m e : ℚ) + 2)) * 2 ^ e ≤ (4 * m) * 2 ^ e := by linarith
  have hnat : 10 ^ 16 * (room m e + 2) ≤ 4 * m := by
    exact_mod_cast le_of_mul_le_mul_right hbound hp
  have := h.lt
  rw [room] at hnat
  split at hnat
  · rename_i hm
    rw [hm.1, Nat.pow_eq] at hnat
    omega
  · omega

lemma stripZeros_value (fuel : ℕ) (s : Scaled) :
    ((stripZeros fuel s).significand : ℚ) * 10 ^ (stripZeros fuel s).exponent =
      s.significand * 10 ^ s.exponent := by
  induction fuel generalizing s with
  | zero => rfl
  | succ fuel ih =>
    rw [stripZeros]
    split
    · rename_i h
      have hd : (s.significand : ℚ) = (s.significand / 10 : ℕ) * 10 := by
        exact_mod_cast (Nat.div_mul_cancel (Nat.dvd_of_mod_eq_zero h.2)).symm
      rw [ih, hd, zpow_add_one₀ (by norm_num)]
      ring
    · rfl

theorem shortest_roundsTo (h : Canonical m e) (tie : Tie) :
    RoundsTo m e ((shortest tie m e).significand * 10 ^ (shortest tie m e).exponent) := by
  obtain ⟨n, hn⟩ := h.exists_onGrid tie
  simp only [shortest, stripZeros_value, Nat.pow_eq]
  cases hf : (List.range 17).findSome? _ with
  | none =>
    rw [List.findSome?_eq_none_iff] at hf
    have := hf 16 (by simp)
    simp [hn] at this
  | some s =>
    obtain ⟨k, -, hk⟩ := List.exists_of_findSome?_eq_some hf
    obtain ⟨n, hn, rfl⟩ := Option.map_eq_some_iff.1 hk
    exact onGrid_roundsTo hn

end ColourPipeline.Decimal
