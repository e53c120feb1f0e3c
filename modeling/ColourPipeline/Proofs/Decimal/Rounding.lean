import ColourPipeline.Decimal.Binary
import ColourPipeline.Decimal.Shortest
import Mathlib

namespace ColourPipeline.Decimal

open Float.Model UnpackedFloat

structure Canonical (m : ℕ) (e : ℤ) : Prop where
  pos : 0 < m
  lt : m < 2 ^ 53
  low : -1074 ≤ e
  normal : m < 2 ^ 52 → e = -1074

section Parts

abbrev signBit (b : BitVec 64) : BitVec 1 := @unpackSign Format.binary64 b

abbrev exponentBits (b : BitVec 64) : BitVec 11 := @unpackExponent Format.binary64 b

abbrev mantissaBits (b : BitVec 64) : BitVec 52 := @unpackMantissa Format.binary64 b

lemma toNat_parts (b : BitVec 64) :
    b.toNat = (signBit b).toNat * 2 ^ 63 + (exponentBits b).toNat * 2 ^ 52 +
      (mantissaBits b).toNat := by
  have h := b.isLt
  simp [unpackSign, unpackExponent, unpackMantissa, Nat.shiftRight_eq_div_pow]
  omega

lemma eq_of_parts {b c : BitVec 64} (hs : signBit b = signBit c)
    (he : exponentBits b = exponentBits c) (hm : mantissaBits b = mantissaBits c) : b = c := by
  apply BitVec.eq_of_toNat_eq
  rw [toNat_parts, toNat_parts c, hs, he, hm]

lemma ofBitVec_inj {a b : BitVec 1} (h : Sign.ofBitVec a = Sign.ofBitVec b) : a = b := by
  rcases BitVec.eq_zero_or_eq_one a with rfl | rfl <;>
    rcases BitVec.eq_zero_or_eq_one b with rfl | rfl <;> simp_all [Sign.ofBitVec]

lemma toNat_implicit (v : BitVec 52) : (1#1 ++ v).toNat = 2 ^ 52 + v.toNat := by
  rw [BitVec.toNat_append, ← Nat.shiftLeft_add_eq_or_of_lt v.isLt]
  rfl

end Parts

lemma parts_of_zero {x : Float} {s : Sign} (hx : unpack x = .zero s) :
    Sign.ofBitVec (signBit x.toBits.toBitVec) = s ∧ exponentBits x.toBits.toBitVec = 0#11 ∧
      mantissaBits x.toBits.toBitVec = 0#52 := by
  simp only [unpack, UnpackedFloat.unpack] at hx
  split at hx
  · split at hx <;> cases hx
  split at hx
  · split at hx
    · injection hx with hs
      exact ⟨hs, ‹_›, ‹_›⟩
    · cases hx
  · cases hx

lemma parts_of_finite {x : Float} {s : Sign} {m : ℕ} {e : ℤ} {h : 0 < m}
    (hx : unpack x = .finite s m e h) :
    Sign.ofBitVec (signBit x.toBits.toBitVec) = s ∧
      ((exponentBits x.toBits.toBitVec).toNat = 0 ∧ m = (mantissaBits x.toBits.toBitVec).toNat ∧
          e = -1074 ∨
        0 < (exponentBits x.toBits.toBitVec).toNat ∧
          m = 2 ^ 52 + (mantissaBits x.toBits.toBitVec).toNat ∧
          e = (exponentBits x.toBits.toBitVec).toNat - 1075) := by
  simp only [unpack, UnpackedFloat.unpack] at hx
  split at hx
  · split at hx <;> cases hx
  split at hx
  · rename_i hz
    split at hx
    · cases hx
    · injection hx with hs hm he
      rw [hz] at he
      exact ⟨hs, .inl ⟨congrArg BitVec.toNat hz, hm.symm, he.symm⟩⟩
  · rename_i hz
    injection hx with hs hm he
    have hp : 0 < (exponentBits x.toBits.toBitVec).toNat :=
      Nat.pos_of_ne_zero fun h => hz (BitVec.eq_of_toNat_eq h)
    exact ⟨hs, .inr ⟨hp, hm.symm.trans (toNat_implicit _), he.symm⟩⟩

lemma canonical_of_finite {x : Float} {s : Sign} {m : ℕ} {e : ℤ} {h : 0 < m}
    (hx : unpack x = .finite s m e h) : Canonical m e := by
  have hm := (mantissaBits x.toBits.toBitVec).isLt
  obtain ⟨-, ⟨-, rfl, rfl⟩ | ⟨hp, rfl, rfl⟩⟩ := parts_of_finite hx
  · exact ⟨h, lt_trans hm (by decide), le_rfl, fun _ => rfl⟩
  · exact ⟨h, by omega, by omega, by omega⟩

lemma eq_of_toBitVec {x y : Float} (h : x.toBits.toBitVec = y.toBits.toBitVec) : x = y := by
  rcases x with ⟨⟨⟨a⟩, ha⟩⟩
  rcases y with ⟨⟨⟨b⟩, hb⟩⟩
  simpa [Float.toBits] using h

lemma eq_of_zero {x y : Float} {s : Sign} (hx : unpack x = .zero s) (hy : unpack y = .zero s) :
    x = y := by
  obtain ⟨hs, he, hm⟩ := parts_of_zero hx
  obtain ⟨hs', he', hm'⟩ := parts_of_zero hy
  exact eq_of_toBitVec (eq_of_parts (ofBitVec_inj (hs.trans hs'.symm)) (he.trans he'.symm)
    (hm.trans hm'.symm))

lemma eq_of_finite {x y : Float} {s : Sign} {m : ℕ} {e : ℤ} {h : 0 < m}
    (hx : unpack x = .finite s m e h) (hy : unpack y = .finite s m e h) : x = y := by
  have hm := (mantissaBits x.toBits.toBitVec).isLt
  have hm' := (mantissaBits y.toBits.toBitVec).isLt
  obtain ⟨hs, hc⟩ := parts_of_finite hx
  obtain ⟨hs', hc'⟩ := parts_of_finite hy
  apply eq_of_toBitVec
  apply eq_of_parts (ofBitVec_inj (hs.trans hs'.symm)) <;> apply BitVec.eq_of_toNat_eq <;> omega

structure RoundsTo (m : ℕ) (e : ℤ) (q : ℚ) : Prop where
  above : 4 * (q - m * 2 ^ e) ≤ 2 * 2 ^ e
  below : 4 * (m * 2 ^ e - q) ≤ room m e * 2 ^ e
  strict : m % 2 = 1 → 4 * (q - m * 2 ^ e) < 2 * 2 ^ e ∧ 4 * (m * 2 ^ e - q) < room m e * 2 ^ e

lemma room_le (m : ℕ) (e : ℤ) : room m e ≤ 2 := by
  rw [room]
  split <;> decide

lemma RoundsTo.not_of_lt_mantissa {m n : ℕ} {e : ℤ} {q : ℚ} (hm : RoundsTo m e q)
    (hn : RoundsTo n e q) : ¬ m < n := by
  intro h
  have hp : (0 : ℚ) < 2 ^ e := by positivity
  have hr : (room n e : ℚ) ≤ 2 := by exact_mod_cast room_le n e
  have ha := hm.above
  have hb := hn.below
  have hg : ((m : ℚ) + 1) * 2 ^ e ≤ n * 2 ^ e := by gcongr; exact_mod_cast h
  have hr' : (room n e : ℚ) * 2 ^ e ≤ 2 * 2 ^ e := by gcongr
  rcases Nat.mod_two_eq_zero_or_one m with he | ho
  · rcases Nat.mod_two_eq_zero_or_one n with he' | ho'
    · have : ((m : ℚ) + 2) * 2 ^ e ≤ n * 2 ^ e := by gcongr; exact_mod_cast (by omega : m + 2 ≤ n)
      linarith
    · linarith [(hn.strict ho').2]
  · linarith [(hm.strict ho).1]

lemma RoundsTo.not_of_lt_exponent {m n : ℕ} {e f : ℤ} {q : ℚ} (hm : RoundsTo m e q)
    (hc : Canonical m e) (hd : Canonical n f) (hn : RoundsTo n f q) : ¬ e < f := by
  intro h
  have hp : (0 : ℚ) < 2 ^ e := by positivity
  have hf : 2 * (2 : ℚ) ^ e ≤ 2 ^ f := by
    rw [← zpow_one_add₀ two_ne_zero]
    exact zpow_le_zpow_right₀ one_le_two (by omega)
  have hlow : 2 ^ 52 ≤ n := by
    by_contra hlt
    have := hd.normal (by omega)
    have := hc.low
    omega
  have hmax : ((m : ℚ) + 1) * 2 ^ e ≤ 2 ^ 53 * 2 ^ e := by
    gcongr
    exact_mod_cast hc.lt
  have ha := hm.above
  have hb := hn.below
  rcases hlow.eq_or_lt with heq | hlt
  · have hr : room n f = 1 := by
      have := hc.low
      simp [room, ← heq]
      omega
    rw [hr, ← heq] at hb
    push_cast at hb
    rcases Nat.mod_two_eq_zero_or_one m with he | ho
    · have heven : ((m : ℚ) + 2) * 2 ^ e ≤ 2 ^ 53 * 2 ^ e := by
        have := hc.lt
        gcongr
        exact_mod_cast (by omega : m + 2 ≤ 2 ^ 53)
      linarith
    · linarith [(hm.strict ho).1]
  · have hn1 : ((2 : ℚ) ^ 52 + 1) * 2 ^ f ≤ n * 2 ^ f := by
      gcongr
      exact_mod_cast hlt
    have hr' : (room n f : ℚ) * 2 ^ f ≤ 2 * 2 ^ f := by
      gcongr
      exact_mod_cast room_le n f
    linarith

theorem RoundsTo.unique {m n : ℕ} {e f : ℤ} {q : ℚ} (hc : Canonical m e) (hd : Canonical n f)
    (hm : RoundsTo m e q) (hn : RoundsTo n f q) : m = n ∧ e = f := by
  rcases lt_trichotomy e f with h | rfl | h
  · exact absurd h (hm.not_of_lt_exponent hc hd hn)
  · rcases lt_trichotomy m n with h | rfl | h
    · exact absurd h (hm.not_of_lt_mantissa hn)
    · exact ⟨rfl, rfl⟩
    · exact absurd h (hn.not_of_lt_mantissa hm)
  · exact absurd h (hn.not_of_lt_exponent hd hc hm)

lemma RoundsTo.pos {m : ℕ} {e : ℤ} {q : ℚ} (hm : 0 < m) (h : RoundsTo m e q) : 0 < q := by
  have hp : (0 : ℚ) < 2 ^ e := by positivity
  have hr : (room m e : ℚ) * 2 ^ e ≤ 2 * 2 ^ e := by
    gcongr
    exact_mod_cast room_le m e
  have hv : 1 * (2 : ℚ) ^ e ≤ m * 2 ^ e := by
    gcongr
    exact_mod_cast hm
  linarith [h.below]

end ColourPipeline.Decimal
