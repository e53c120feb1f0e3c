import ColourPipeline.Json.Number
import ColourPipeline.Json.Writer
import ColourPipeline.Proofs.Decimal.Shortest

namespace ColourPipeline

namespace Decimal

lemma ofDigits_cons_append (cs ds : List Char) :
    ofDigits (cs ++ ds) = ofDigits cs * 10 ^ ds.length + ofDigits ds := by
  induction ds using List.reverseRecOn with
  | nil => simp [ofDigits]
  | append_singleton ds c ih =>
    rw [← List.append_assoc, ofDigits_append, ofDigits_append, ih, List.length_append,
      List.length_singleton, pow_succ]
    ring

lemma ofDigits_zeros (n : ℕ) : ofDigits (List.replicate n '0') = 0 := by
  induction n with
  | zero => rfl
  | succ n ih => rw [List.replicate_succ', ofDigits_append, ih]; rfl

lemma head_digits_ne_zero {n : ℕ} (hn : 0 < n) : (digits n).head? ≠ some '0' := by
  fun_induction digits n with
  | case1 n h => interval_cases n <;> decide
  | case2 n h ih =>
    have := digits_ne_nil (n / 10)
    rw [List.head?_append_of_ne_nil _ this]
    exact ih (by omega)

end Decimal

namespace Json.Numeral

open Decimal

def Stops (rest : List Char) : Prop :=
  ∀ c ∈ rest.head?, isDigit c = false ∧ c ≠ '.' ∧ c ≠ 'e' ∧ c ≠ 'E'

lemma Stops.nil : Stops [] := by simp [Stops]

lemma someDigits_append {ds rest : List Char} (hne : ds ≠ []) (hd : ds.all isDigit = true)
    (hr : ∀ c ∈ rest.head?, isDigit c = false) : someDigits (ds ++ rest) = some (ds, rest) := by
  have hrest : rest.takeWhile isDigit = [] ∧ rest.dropWhile isDigit = rest := by
    cases rest with
    | nil => exact ⟨rfl, rfl⟩
    | cons c cs => simp [hr c rfl]
  rw [List.all_eq_true] at hd
  rw [someDigits]
  rw [List.takeWhile_append_of_pos hd, List.dropWhile_append_of_pos hd, hrest.1, hrest.2,
    List.append_nil]
  cases ds with
  | nil => contradiction
  | cons d ds => rfl

lemma scanWhole_zero {rest : List Char} (hr : ∀ c ∈ rest.head?, isDigit c = false) :
    scanWhole ('0' :: rest) = some (['0'], rest) := by
  cases rest with
  | nil => rfl
  | cons c cs => simp [scanWhole, hr c rfl]

lemma scanWhole_append {ds rest : List Char} (hz : ds.head? ≠ some '0') (hne : ds ≠ [])
    (hd : ds.all isDigit = true) (hr : ∀ c ∈ rest.head?, isDigit c = false) :
    scanWhole (ds ++ rest) = some (ds, rest) := by
  rw [← someDigits_append hne hd hr]
  cases ds with
  | nil => contradiction
  | cons d ds =>
    have : d ≠ '0' := by simpa using hz
    rw [List.cons_append, scanWhole]
    simpa using this

lemma scanFraction_point {ds rest : List Char} (hne : ds ≠ []) (hd : ds.all isDigit = true)
    (hr : ∀ c ∈ rest.head?, isDigit c = false) :
    scanFraction ('.' :: (ds ++ rest)) = some (some ds, rest) := by
  simp [scanFraction, someDigits_append hne hd hr]

lemma scanFraction_none {rest : List Char} (hr : ∀ c ∈ rest.head?, c ≠ '.') :
    scanFraction rest = some (none, rest) := by
  simp only [scanFraction]
  split
  · simp at hr
  · rfl

lemma scanExponent_none {rest : List Char} (hr : Stops rest) :
    scanExponent rest = some (none, rest) := by
  simp only [scanExponent]
  split
  · simp [Stops] at hr
  · simp [Stops] at hr
  · rfl

def exact (t : Numeral) : ℚ :=
  let power : ℤ := match t.exponent with
    | none => 0
    | some (minus, ds) => if minus then -(ofDigits ds : ℤ) else ofDigits ds
  ofDigits (t.whole ++ t.fraction.getD []) * 10 ^ (power - (t.fraction.getD []).length)

structure Denotes (cs : List Char) (t : Numeral) : Prop where
  scan : ∀ rest, Stops rest → scanUnsigned t.negative (cs ++ rest) = some (t, rest)
  inexact : t.fraction.isSome ∨ t.exponent.isSome

variable {minus : Bool} {whole fraction ds : List Char} {n : ℕ}

lemma denotes_fraction (hw : ∀ rest, (∀ c ∈ rest.head?, isDigit c = false) →
      scanWhole (whole ++ rest) = some (whole, rest))
    (hne : fraction ≠ []) (hd : fraction.all isDigit = true) :
    Denotes (whole ++ '.' :: fraction) ⟨minus, whole, some fraction, none⟩ where
  scan rest hr := by
    have hw := hw ('.' :: (fraction ++ rest)) (by simp [isDigit])
    have hf := scanFraction_point hne hd fun c hc => (hr c hc).1
    simp [scanUnsigned, hw, hf, scanExponent_none hr]
  inexact := .inl rfl

lemma exact_fraction (hv : ofDigits (whole ++ fraction) = n) :
    exact ⟨minus, whole, some fraction, none⟩ = n * 10 ^ (-(fraction.length : ℤ)) := by
  simp [exact, hv]

lemma all_isDigit_zeros (n : ℕ) : (List.replicate n '0').all isDigit = true := by
  induction n with
  | zero => rfl
  | succ n ih => rw [List.replicate_succ, List.all_cons, ih]; rfl

def Shows (minus : Bool) (cs : List Char) (q : ℚ) : Prop :=
  ∃ t : Numeral, Denotes cs t ∧ t.negative = minus ∧ t.exact = q

structure Leading (ds : List Char) (n : ℕ) : Prop where
  ne_nil : ds ≠ []
  head : ds.head? ≠ some '0'
  all : ds.all isDigit = true
  value : ofDigits ds = n

lemma leading_digits (hn : 0 < n) : Leading (digits n) n :=
  ⟨digits_ne_nil n, head_digits_ne_zero hn, all_isDigit_digits n, ofDigits_digits n⟩

lemma Leading.scanWhole {rest : List Char} (h : Leading ds n)
    (hr : ∀ c ∈ rest.head?, isDigit c = false) : scanWhole (ds ++ rest) = some (ds, rest) :=
  scanWhole_append h.head h.ne_nil h.all hr

lemma shows_below (h : Leading ds n) (zeros : ℕ) :
    Shows minus ('0' :: '.' :: (List.replicate zeros '0' ++ ds))
      (n * 10 ^ (-((zeros + ds.length : ℕ) : ℤ))) := by
  have hall : (List.replicate zeros '0' ++ ds).all isDigit = true := by
    rw [List.all_append, all_isDigit_zeros, h.all]
    rfl
  have hne : List.replicate zeros '0' ++ ds ≠ [] := by simp [h.ne_nil]
  have hd := @denotes_fraction minus ['0'] _ (fun rest => scanWhole_zero) hne hall
  refine ⟨_, hd, rfl, ?_⟩
  rw [exact_fraction (n := n), List.length_append, List.length_replicate]
  rw [ofDigits_cons_append, ofDigits_cons_append, ofDigits_zeros, h.value]
  simp [ofDigits, digitValue]

lemma shows_above (h : Leading ds n) (zeros : ℕ) :
    Shows minus (ds ++ List.replicate zeros '0' ++ ['.', '0']) (n * 10 ^ (zeros : ℤ)) := by
  have hall : (ds ++ List.replicate zeros '0').all isDigit = true := by
    rw [List.all_append, all_isDigit_zeros, h.all]
    rfl
  have hz : (ds ++ List.replicate zeros '0').head? ≠ some '0' := by
    rw [List.head?_append_of_ne_nil _ h.ne_nil]
    exact h.head
  have hne : ds ++ List.replicate zeros '0' ≠ [] := by simp [h.ne_nil]
  refine ⟨⟨minus, ds ++ List.replicate zeros '0', some ['0'], none⟩,
    denotes_fraction (fun rest => scanWhole_append hz hne hall) (by simp) rfl, rfl, ?_⟩
  rw [exact_fraction (n := n * 10 ^ zeros * 10)]
  · simp
  · rw [ofDigits_cons_append, ofDigits_cons_append, ofDigits_zeros, h.value]
    simp [ofDigits, digitValue]

lemma shows_within (h : Leading ds n) {k : ℕ} (hk : 0 < k) (hlt : k < ds.length) :
    Shows minus (ds.take k ++ '.' :: ds.drop k) (n * 10 ^ (-((ds.length - k : ℕ) : ℤ))) := by
  have hsplit := List.take_append_drop k ds
  have hall := h.all
  rw [← hsplit, List.all_append, Bool.and_eq_true] at hall
  have hne : ds.take k ≠ [] := by simp [h.ne_nil, hk.ne']
  have hz : (ds.take k).head? ≠ some '0' := by
    rw [List.head?_take, if_neg hk.ne']
    exact h.head
  refine ⟨⟨minus, ds.take k, some (ds.drop k), none⟩,
    denotes_fraction (fun rest => scanWhole_append hz hne hall.1) (by simpa using hlt) hall.2,
    rfl, ?_⟩
  rw [exact_fraction (n := n), List.length_drop]
  rw [hsplit, h.value]

lemma scanPower_append (power : ℤ) {rest : List Char} (hr : Stops rest) :
    scanPower ((if power < 0 then '-' else '+') :: (digits power.natAbs ++ rest)) =
      some ((decide (power < 0), digits power.natAbs), rest) := by
  have hs := someDigits_append (digits_ne_nil power.natAbs) (all_isDigit_digits _)
    fun c hc => (hr c hc).1
  split <;> simp [scanPower, *]

lemma ofDigits_natAbs (power : ℤ) :
    (if decide (power < 0) = true then -(ofDigits (digits power.natAbs) : ℤ)
      else ofDigits (digits power.natAbs)) = power := by
  rw [ofDigits_digits]
  by_cases h : power < 0
  · rw [decide_eq_true h, if_pos rfl]
    omega
  · rw [decide_eq_false h, if_neg (by simp)]
    omega

lemma denotes_power {d : Char} {shown : List Char} {part : Option (List Char)} (power : ℤ)
    (hd : isDigit d = true) (hz : d ≠ '0')
    (hf : ∀ rest, scanFraction (shown ++ 'e' :: rest) = some (part, 'e' :: rest))
    (hs : ∀ c ∈ (shown ++ ['e']).head?, isDigit c = false) :
    Denotes (d :: (shown ++ 'e' :: (if power < 0 then '-' else '+') :: digits power.natAbs))
      ⟨minus, [d], part, some (decide (power < 0), digits power.natAbs)⟩ where
  scan rest hr := by
    have hstop : ∀ c ∈ (shown ++ 'e' :: ((if power < 0 then '-' else '+') ::
        (digits power.natAbs ++ rest))).head?, isDigit c = false := by
      cases shown <;> simpa using hs
    have hw := @scanWhole_append [d] _ (by simpa using hz) (by simp) (by simpa using hd) hstop
    have hp := scanPower_append power hr
    rw [List.singleton_append] at hw
    simp [scanUnsigned, hw, hf, scanExponent, hp]
  inexact := .inr rfl

lemma shows_power (h : Leading ds n) (power : ℤ) :
    Shows minus (Style.withExponent ds power) (n * 10 ^ (power - (ds.length - 1 : ℕ))) := by
  obtain ⟨d, ds, rfl⟩ := List.exists_cons_of_ne_nil h.ne_nil
  have hall := h.all
  rw [List.all_cons, Bool.and_eq_true] at hall
  have hz : d ≠ '0' := by simpa using h.head
  cases ds with
  | nil =>
    have hd := @denotes_power minus d [] none power hall.1 hz (fun _ => rfl) (by simp [isDigit])
    refine ⟨_, hd, rfl, ?_⟩
    simp only [exact, Option.getD_none, List.append_nil, h.value, ofDigits_natAbs]
    rfl
  | cons c cs =>
    have hf (rest : List Char) : scanFraction (('.' :: c :: cs) ++ 'e' :: rest) =
        some (some (c :: cs), 'e' :: rest) :=
      scanFraction_point (by simp) hall.2 (by simp [isDigit])
    have hd := @denotes_power minus d _ _ power hall.1 hz hf (by simp [isDigit])
    refine ⟨_, hd, rfl, ?_⟩
    simp only [exact, Option.getD_some, List.singleton_append, h.value, ofDigits_natAbs]
    rfl

lemma shows_scaled {s : Scaled} (hs : 0 < s.significand) :
    Shows minus (Style.document.scaled s) (s.significand * 10 ^ s.exponent) := by
  have h := leading_digits hs
  have hlen := length_digits_pos s.significand
  unfold Style.scaled
  dsimp only
  generalize hds : digits s.significand = ds at *
  split
  · rw [Style.place]
    split
    · have hb := @shows_below minus _ _ h (-(ds.length + s.exponent)).toNat
      rwa [show -((((-(ds.length + s.exponent)).toNat + ds.length : ℕ)) : ℤ) = s.exponent by omega]
        at hb
    · split
      · have ha := @shows_above minus _ _ h ((ds.length + s.exponent).toNat - ds.length)
        rwa [show ((((ds.length + s.exponent).toNat - ds.length : ℕ)) : ℤ) = s.exponent by omega]
          at ha
      · have hw := @shows_within minus _ _ h (ds.length + s.exponent).toNat (by omega) (by omega)
        rwa [show -(((ds.length - (ds.length + s.exponent).toNat : ℕ)) : ℤ) = s.exponent by omega]
          at hw
  · have hp := @shows_power minus _ _ h (ds.length + s.exponent - 1)
    rwa [show ds.length + s.exponent - 1 - ((ds.length - 1 : ℕ) : ℤ) = s.exponent by omega] at hp

end Json.Numeral

namespace Json

open Decimal Float.Model Numeral

variable {t u : Numeral}

def isNegative : UnpackedFloat.Sign → Bool
  | .negative => true
  | .positive => false

def Numeral.Nears (t : Numeral) (x : Float) : Prop :=
  match unpack x with
  | .zero s => t.negative = isNegative s ∧ t.exact = 0
  | .finite s m e _ => t.negative = isNegative s ∧ RoundsTo m e t.exact
  | _ => False

lemma sign_eq {s s' : UnpackedFloat.Sign} {b : Bool} (h : b = isNegative s)
    (h' : b = isNegative s') : s = s' := by
  cases s <;> cases s' <;> simp_all [isNegative]

lemma Numeral.Nears.unique {x y : Float} (hx : t.Nears x) (hy : t.Nears y) : x = y := by
  rw [Numeral.Nears] at hx hy
  split at hx
  · rename_i s hs
    split at hy
    · rename_i s' hs'
      obtain rfl := sign_eq hx.1 hy.1
      exact eq_of_zero hs hs'
    · rename_i m e hm _
      exact absurd hx.2 (hy.2.pos hm).ne'
    · contradiction
  · rename_i s m e hm hs
    split at hy
    · exact absurd hy.2 (hx.2.pos hm).ne'
    · rename_i s' n f hn hs'
      obtain rfl := sign_eq hx.1 hy.1
      obtain ⟨rfl, rfl⟩ := hx.2.unique (canonical_of_finite hs) (canonical_of_finite hs') hy.2
      exact eq_of_finite hs hs'
    · contradiction
  · contradiction

lemma scan_of_unsigned {cs : List Char} {r : Numeral × List Char}
    (h : scanUnsigned false cs = some r) : Numeral.scan cs = some r := by
  simp only [Numeral.scan]
  split
  · simp [scanUnsigned, scanWhole, someDigits, isDigit] at h
  · exact h

def Scans (cs : List Char) (t : Numeral) : Prop :=
  ∀ rest, Stops rest → Numeral.scan (cs ++ rest) = some (t, rest)

lemma Scans.unique {cs ds r r' : List Char} (ht : Scans cs t) (hu : Scans ds u) (hr : Stops r)
    (hr' : Stops r') (h : cs ++ r = ds ++ r') : t = u ∧ r = r' := by
  have hs := ht r hr
  rw [h, hu r' hr'] at hs
  simpa [eq_comm] using hs

lemma scans_signed {s : UnpackedFloat.Sign} {cs : List Char} (h : Denotes cs t)
    (ht : t.negative = isNegative s) : Scans (Style.signed s cs) t := by
  intro rest hr
  have hs := h.scan rest hr
  rw [ht] at hs
  cases s with
  | positive => exact scan_of_unsigned hs
  | negative => exact hs

lemma denotes_zero (minus : Bool) :
    Denotes ['0', '.', '0'] ⟨minus, ['0'], some ['0'], none⟩ :=
  @denotes_fraction minus ['0'] ['0'] (fun _ => scanWhole_zero) (by simp) rfl

lemma exists_scans {x : Float} (hx : x.isFinite = true) :
    ∃ t : Numeral, Scans (floatChars x) t ∧ (t.fraction.isSome ∨ t.exponent.isSome) ∧
      t.Nears x := by
  have hf : (unpack x).isFinite = true := hx
  simp only [floatChars, Style.chars, Numeral.Nears]
  rw [if_pos hx]
  cases hu : unpack x with
  | infinity s => rw [hu] at hf; cases hf
  | notANumber => rw [hu] at hf; cases hf
  | zero s =>
    have hd := denotes_zero (isNegative s)
    exact ⟨_, scans_signed hd rfl, hd.inexact, rfl, by simp [exact, ofDigits, digitValue]⟩
  | finite s m e hm =>
    have hr := shortest_roundsTo (canonical_of_finite hu) Tie.even
    have hs : 0 < (shortest Tie.even m e).significand := by
      have := hr.pos hm
      by_contra h
      simp_all
    obtain ⟨t, hd, hn, hq⟩ := @shows_scaled (isNegative s) _ hs
    exact ⟨t, scans_signed hd hn, hd.inexact, hn, hq ▸ hr⟩

lemma scans_digits (minus : Bool) (n : ℕ) {rest : List Char} (hr : Stops rest) :
    scanUnsigned minus (digits n ++ rest) = some (⟨minus, digits n, none, none⟩, rest) := by
  have hd : ∀ c ∈ rest.head?, isDigit c = false := fun c hc => (hr c hc).1
  have hw : scanWhole (digits n ++ rest) = some (digits n, rest) := by
    rcases Nat.eq_zero_or_pos n with rfl | hn
    · have h0 : digits 0 = ['0'] := by
        rw [digits]
        rfl
      rw [h0]
      exact scanWhole_zero hd
    · exact (leading_digits hn).scanWhole hd
  have hf := @scanFraction_none rest fun c hc => (hr c hc).2.1
  simp [scanUnsigned, hw, hf, scanExponent_none hr]

lemma scans_int (z : ℤ) : Scans (intChars z) ⟨decide (z < 0), digits z.natAbs, none, none⟩ := by
  intro rest hr
  rw [intChars]
  by_cases hz : z < 0
  · rw [if_pos hz, decide_eq_true hz]
    exact scans_digits true _ hr
  · rw [if_neg hz, decide_eq_false hz]
    exact scan_of_unsigned (scans_digits false _ hr)

lemma numeral_int_inj {y z : ℤ} (h : (⟨decide (y < 0), digits y.natAbs, none, none⟩ : Numeral) =
    ⟨decide (z < 0), digits z.natAbs, none, none⟩) : y = z := by
  injection h with hs hd
  have hn : y.natAbs = z.natAbs := by
    rw [← ofDigits_digits y.natAbs, hd, ofDigits_digits]
  have hs : y < 0 ↔ z < 0 := decide_eq_decide.1 hs
  omega

end Json

end ColourPipeline
