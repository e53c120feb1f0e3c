import ColourPipeline.Gain
import ColourPipeline.Proofs.Options.Alike

namespace ColourPipeline

open Decimal Float.Model

def Decimal.Unbounded (k : Float32) : Prop :=
  k = Float32.ofBits 0x7FC00000 ∨ k = Float32.ofBits 0x7F800000 ∨ k = Float32.ofBits 0xFF800000

instance (k : Float32) : Decidable (Unbounded k) := inferInstanceAs (Decidable (_ ∨ _ ∨ _))

lemma unbounded_toSingle {x : Float} (hx : x.isFinite = false) : Unbounded (toSingle x) := by
  have hf : (unpack x).isFinite = false := hx
  rw [toSingle]
  cases hu : unpack x with
  | notANumber => decide
  | infinity s => cases s <;> decide
  | zero s => rw [hu] at hf; cases hf
  | finite s m e h => rw [hu] at hf; cases hf

lemma Decimal.Unbounded.one_mul {k : Float32} (hk : Unbounded k) : (1 : Float32) * k = k := by
  rcases hk with rfl | rfl | rfl <;> decide

lemma Decimal.Unbounded.ne_one {k : Float32} (hk : Unbounded k) : (k == 1) = false := by
  rcases hk with rfl | rfl | rfl <;> decide

namespace OptionSet

variable {s t : OptionSet}

lemma Alike.find? (h : Alike s t) (k : String) :
    Option.Rel OptionEntry.Alike (s.find? k) (t.find? k) := by
  obtain ⟨ds⟩ := s
  obtain ⟨es⟩ := t
  change List.Forall₂ _ ds es at h
  unfold OptionSet.find?
  dsimp only
  induction h with
  | nil => exact .none
  | @cons d e ds es hd _ ih =>
    have hk : d.key = e.key := congrArg optionKey hd.registration
    by_cases hc : d.key = k
    · rw [List.find?_cons_of_pos (by simpa using hc),
        List.find?_cons_of_pos (by simpa [← hk] using hc)]
      exact .some hd
    · rw [List.find?_cons_of_neg (by simpa using hc),
        List.find?_cons_of_neg (by simpa [← hk] using hc)]
      exact ih

def Blurred (x y : Option Float) : Prop :=
  x = y ∨ ∃ a b, x = some a ∧ y = some b ∧ a.isFinite = false ∧ b.isFinite = false

lemma blurred_asDouble {v w : OptionValue} (h : v.Alike w) : Blurred v.asDouble w.asDouble := by
  simp only [OptionValue.Alike] at h
  split at h
  · rename_i x y
    rcases h with rfl | ⟨hx, hy⟩
    · exact .inl rfl
    · exact .inr ⟨x, y, rfl, rfl, hx, hy⟩
  · exact .inl (by rw [h])

lemma Alike.double? (h : Alike s t) (k : String) : Blurred (s.double? k) (t.double? k) := by
  have hf := h.find? k
  simp only [OptionSet.double?, OptionSet.value?]
  generalize s.find? k = d at hf
  generalize t.find? k = e at hf
  cases hf with
  | none => exact .inl rfl
  | some hd => exact blurred_asDouble hd.value

end OptionSet

namespace OptionSet

def factor (s : OptionSet) (key : String) : Float32 :=
  toSingle (((s.double? key).or (s.double? "gain")).getD 1)

def Neutral (s : OptionSet) : Bool :=
  s.factor "gain_r" == 1 && s.factor "gain_g" == 1 && s.factor "gain_b" == 1

end OptionSet

namespace Gain

variable {s t : OptionSet}

lemma ofOptions_eq (s : OptionSet) :
    ofOptions s = ⟨s.factor "gain_r", s.factor "gain_g", s.factor "gain_b"⟩ := by
  have hc (k : String) : ((s.double? k).map toSingle).getD (toSingle ((s.double? "gain").getD 1)) =
      s.factor k := by
    rw [OptionSet.factor]
    cases s.double? k <;> rfl
  rw [ofOptions]
  dsimp only
  rw [hc, hc, hc]

def Clouded (k l : Float32) : Prop := k = l ∨ Unbounded k ∧ Unbounded l

lemma clouded_uniform (h : s.Alike t) (k : String) :
    Clouded (toSingle ((s.double? k).getD 1)) (toSingle ((t.double? k).getD 1)) := by
  rcases h.double? k with he | ⟨x, y, hx, hy, hfx, hfy⟩
  · rw [he]
    exact .inl rfl
  · rw [hx, hy]
    exact .inr ⟨unbounded_toSingle hfx, unbounded_toSingle hfy⟩

lemma clouded_channel (h : s.Alike t) (k : String) {u v : Float32} (hu : Clouded u v) :
    Clouded (((s.double? k).map toSingle).getD u) (((t.double? k).map toSingle).getD v) := by
  rcases h.double? k with he | ⟨x, y, hx, hy, hfx, hfy⟩
  · rw [he]
    cases t.double? k with
    | none => exact hu
    | some y => exact .inl rfl
  · rw [hx, hy]
    exact .inr ⟨unbounded_toSingle hfx, unbounded_toSingle hfy⟩

lemma Clouded.symm {k l : Float32} (h : Clouded k l) : Clouded l k :=
  h.imp Eq.symm And.symm

lemma Clouded.eq_of_one {k l : Float32} (h : Clouded k l) (hk : (k == 1) = true) : k = l := by
  rcases h with h | ⟨h, -⟩
  · exact h
  · rw [h.ne_one] at hk
    cases hk

lemma Clouded.eq_of_mul {k l : Float32} (h : Clouded k l) (hm : (1 : Float32) * k = 1 * l) :
    k = l := by
  rcases h with h | ⟨hk, hl⟩
  · exact h
  · rwa [hk.one_mul, hl.one_mul] at hm

structure Near (k l : Gain) : Prop where
  r : Clouded k.r l.r
  g : Clouded k.g l.g
  b : Clouded k.b l.b

lemma near_ofOptions (h : s.Alike t) : Near (ofOptions s) (ofOptions t) := by
  have hu := clouded_uniform h "gain"
  exact ⟨clouded_channel h _ hu, clouded_channel h _ hu, clouded_channel h _ hu⟩

lemma eq_of_channels {k l : Gain} (hr : k.r = l.r) (hg : k.g = l.g) (hb : k.b = l.b) : k = l := by
  cases k
  cases l
  simp_all

lemma Near.eq_of_isIdentity {k l : Gain} (h : Near k l) (hk : k.isIdentity = true) : k = l := by
  simp only [isIdentity, Bool.and_eq_true] at hk
  exact eq_of_channels (h.r.eq_of_one hk.1.1) (h.g.eq_of_one hk.1.2) (h.b.eq_of_one hk.2)

def probe : Pixel := ⟨1, 1, 1, 1⟩

lemma Near.eq_of_scale {k l : Gain} (h : Near k l) (hs : k.scale probe = l.scale probe) :
    k = l := by
  simp only [scale, probe, Pixel.mk.injEq] at hs
  exact eq_of_channels (h.r.eq_of_mul hs.1) (h.g.eq_of_mul hs.2.1) (h.b.eq_of_mul hs.2.2.1)

theorem eq_of_apply (h : s.Alike t)
    (ha : (ofOptions s).apply ⟨1, 1, #[probe]⟩ = (ofOptions t).apply ⟨1, 1, #[probe]⟩) :
    ofOptions s = ofOptions t := by
  have hn := near_ofOptions h
  by_cases hs : (ofOptions s).isIdentity = true
  · exact hn.eq_of_isIdentity hs
  by_cases ht : (ofOptions t).isIdentity = true
  · exact (Near.eq_of_isIdentity ⟨hn.r.symm, hn.g.symm, hn.b.symm⟩ ht).symm
  · rw [apply, apply, if_neg hs, if_neg ht] at ha
    apply hn.eq_of_scale
    simpa [PixelArray.map] using ha

def Finite (s : OptionSet) : Prop :=
  ∀ k ∈ ["gain", "gain_r", "gain_g", "gain_b"], ∀ x ∈ s.double? k, x.isFinite = true

instance (s : OptionSet) : Decidable (Finite s) :=
  inferInstanceAs (Decidable (∀ k ∈ _, ∀ x ∈ s.double? k, x.isFinite = true))

theorem ofOptions_eq_of_finite (h : s.Alike t) (hs : Finite s) : ofOptions s = ofOptions t := by
  have hd (k : String) (hk : k ∈ ["gain", "gain_r", "gain_g", "gain_b"]) :
      s.double? k = t.double? k := by
    rcases h.double? k with he | ⟨x, y, hx, hy, hfx, -⟩
    · exact he
    · have := hs k hk x hx
      rw [hfx] at this
      cases this
  unfold ofOptions
  dsimp only
  rw [hd "gain" (by simp), hd "gain_r" (by simp), hd "gain_g" (by simp), hd "gain_b" (by simp)]

end Gain

end ColourPipeline
