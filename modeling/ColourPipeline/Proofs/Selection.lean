import ColourPipeline.Registration
import Mathlib

namespace ColourPipeline

namespace Segment

variable {s t c d : Segment}

lemma admits_iff : s.admits c = true ↔ s.keys = ["*"] ∨ ∀ k ∈ s.keys, k ∈ c.keys := by
  simp [admits, isWildcard]

lemma admits_of_subset (h : s.admits c = true) (hk : c.keys ⊆ d.keys) : s.admits d = true := by
  rw [admits_iff] at h ⊢
  exact h.imp id fun h k hs => hk (h k hs)

def HasStars (s : Segment) : Prop := ∃ n, s.keys = List.replicate (n + 2) "*"

lemma admits_trans (hn : s.keys ≠ []) (hs : ¬ s.HasStars) (hst : s.admits t = true)
    (htc : t.admits c = true) : s.admits c = true := by
  rw [admits_iff] at hst htc ⊢
  rcases hst with hw | hst
  · exact .inl hw
  rcases htc with hw | htc
  · -- All keys that `t` has are stars, so `s` is made of stars, and that is the wildcard.
    have hstars : s.keys = List.replicate s.keys.length "*" := by
      rw [List.eq_replicate_iff]
      exact ⟨rfl, fun k hk => by simpa [hw] using hst k hk⟩
    left
    match hl : s.keys.length with
    | 0 => exact absurd (List.length_eq_zero_iff.1 hl) hn
    | 1 => simpa [hl] using hstars
    | n + 2 => exact absurd ⟨n, by rw [hstars, hl]⟩ hs
  · exact .inr fun k hk => htc k (hst k hk)

end Segment

namespace Path

variable {p q r : Path} {ps cs : List Segment} {i : ℕ}

def FitsAt (ps cs : List Segment) (i : ℕ) : Prop :=
  ∀ j s, ps[j]? = some s → ∃ c, cs[i + j]? = some c ∧ s.admits c = true

lemma fitsAt_nil (cs : List Segment) (i : ℕ) : FitsAt [] cs i := by simp [FitsAt]

lemma fitsAt_cons {s : Segment} : FitsAt (s :: ps) cs i ↔
    (∃ c, cs[i]? = some c ∧ s.admits c = true) ∧ FitsAt ps cs (i + 1) := by
  constructor
  · intro h
    refine ⟨h 0 s rfl, fun j t ht => ?_⟩
    have hj := h (j + 1) t (by simpa using ht)
    rwa [← add_assoc, add_right_comm] at hj
  · rintro ⟨h0, h⟩ j t ht
    cases j with
    | zero =>
      obtain rfl : s = t := by simpa using ht
      exact h0
    | succ j =>
      have hj := h j t (by simpa using ht)
      rwa [add_right_comm, add_assoc] at hj

lemma fitsAt_succ {c : Segment} : FitsAt ps (c :: cs) (i + 1) ↔ FitsAt ps cs i := by
  simp [FitsAt, add_right_comm]

lemma fits_iff : fits ps cs = true ↔ FitsAt ps cs 0 := by
  induction ps generalizing cs with
  | nil => simp [fits, fitsAt_nil]
  | cons s ps ih =>
    cases cs with
    | nil => simp [fits, fitsAt_cons]
    | cons c cs => simp [fits, fitsAt_cons, fitsAt_succ, ih]

lemma fitsSomewhere_iff : fitsSomewhere ps cs = true ↔ ∃ i, FitsAt ps cs i := by
  induction cs with
  | nil =>
    rw [fitsSomewhere, fits_iff]
    refine ⟨fun h => ⟨0, h⟩, fun ⟨i, h⟩ => ?_⟩
    cases ps with
    | nil => exact fitsAt_nil [] 0
    | cons s ps => simp [fitsAt_cons] at h
  | cons c cs ih =>
    rw [fitsSomewhere, Bool.or_eq_true, fits_iff, ih]
    constructor
    · rintro (h | ⟨i, h⟩)
      · exact ⟨0, h⟩
      · exact ⟨i + 1, fitsAt_succ.2 h⟩
    · rintro ⟨_ | i, h⟩
      · exact .inl h
      · exact .inr ⟨i, fitsAt_succ.1 h⟩

lemma selects_iff : p.selects q = true ↔
    ∃ i, (p.floating = true ∨ i = 0) ∧ FitsAt p.segments q.segments i := by
  rw [selects]
  split
  · rename_i hf
    simp [fitsSomewhere_iff, hf]
  · rename_i hf
    simp [fits_iff, hf]

lemma keys_ne_nil {s : Segment} (h : s ∈ p.segments) : s.keys ≠ [] := by
  simpa using (List.mem_filter.1 h).2

def Enriched (cs ds : List Segment) : Prop :=
  List.Forall₂ (fun c d => c.keys.Sublist d.keys) cs ds

lemma FitsAt.enriched {body front back : List Segment} (h : FitsAt ps cs i)
    (hb : Enriched cs body) : FitsAt ps (front ++ body ++ back) (front.length + i) := by
  intro j s hs
  obtain ⟨c, hc, ha⟩ := h j s hs
  obtain ⟨hlt, hc⟩ := List.getElem?_eq_some_iff.1 hc
  have hlt' : i + j < body.length := hb.length_eq ▸ hlt
  have hk : c.keys.Sublist body[i + j].keys := hc ▸ hb.get hlt hlt'
  refine ⟨body[i + j], ?_, Segment.admits_of_subset ha hk.subset⟩
  rw [List.append_assoc, List.getElem?_append_right (by omega),
    List.getElem?_append_left (by omega)]
  simp [add_assoc, hlt']

lemma FitsAt.trans {qs : List Segment} {k : ℕ} (hn : ∀ s ∈ ps, s.keys ≠ [])
    (hs : ∀ s ∈ ps, ¬ s.HasStars) (hpq : FitsAt ps qs i) (hqc : FitsAt qs cs k) :
    FitsAt ps cs (k + i) := by
  intro j s hj
  have hmem := List.mem_of_getElem? hj
  obtain ⟨t, ht, hst⟩ := hpq j s hj
  obtain ⟨c, hc, htc⟩ := hqc (i + j) t ht
  exact ⟨c, by rwa [add_assoc], Segment.admits_trans (hn s hmem) (hs s hmem) hst htc⟩

/-- A registration goes on being selected when it is refined, and patterns may be chained. -/
theorem selects_refined (p : Path) :
    (∀ c r : Path, ∀ front body back : List Segment, p.selects c = true →
      r.segments = front ++ body ++ back → Enriched c.segments body →
      (front = [] ∨ p.floating = true) → p.selects r = true) ∧
    ((∀ s ∈ p.segments, ¬ s.HasStars) → ∀ q r : Path, p.selects q = true →
      q.selects r = true → (p.floating = true ∨ q.floating = false) → p.selects r = true) := by
  constructor
  · intro c r front body back hc hr hb hf
    obtain ⟨i, hi, hfit⟩ := selects_iff.1 hc
    refine selects_iff.2 ⟨front.length + i, ?_, hr ▸ hfit.enriched hb⟩
    rcases hf with rfl | hf
    · simpa using hi
    · exact .inl hf
  · intro hs q r hpq hqr hf
    obtain ⟨i, hi, hfit⟩ := selects_iff.1 hpq
    obtain ⟨k, hk, hfit'⟩ := selects_iff.1 hqr
    refine selects_iff.2 ⟨k + i, ?_, hfit.trans (fun s => keys_ne_nil) hs hfit'⟩
    rcases hf with hf | hf
    · exact .inl hf
    · rcases hi with hi | rfl
      · exact .inl hi
      · exact .inr (by simpa [hf] using hk)

theorem selects_refined_vendor :
    let p := parse "//*/icc"
    p.selects (parse "colour/icc.transform") = true ∧
      p.selects (parse "org/lab.colour/icc.lcms.transform/gain") = true ∧
      p.selects (parse "//colour/icc") = true ∧
      (parse "//colour/icc").selects (parse "org/colour/lcms.icc") = true ∧
      p.selects (parse "org/colour/lcms.icc") = true := by
  have hp : (parse "//*/icc").segments = [⟨["*"]⟩, ⟨["icc"]⟩] := by decide +kernel
  have hc : (parse "//*/icc").selects (parse "colour/icc.transform") = true := by decide +kernel
  have hr : (parse "org/lab.colour/icc.lcms.transform/gain").segments =
      [⟨["org"]⟩] ++ [⟨["lab", "colour"]⟩, ⟨["icc", "lcms", "transform"]⟩] ++ [⟨["gain"]⟩] := by
    decide +kernel
  have hb : Enriched (parse "colour/icc.transform").segments
      [⟨["lab", "colour"]⟩, ⟨["icc", "lcms", "transform"]⟩] := by
    have hs : (parse "colour/icc.transform").segments =
        [⟨["colour"]⟩, ⟨["icc", "transform"]⟩] := by decide +kernel
    rw [hs]
    exact .cons (by decide) (.cons (by decide) .nil)
  have hn : ∀ s ∈ (parse "//*/icc").segments, ¬ s.HasStars := by
    rw [hp]
    rintro s hs ⟨n, hn⟩
    have hl := congrArg List.length hn
    rcases List.mem_pair.1 hs with rfl | rfl <;> simp at hl
  have hq : (parse "//*/icc").selects (parse "//colour/icc") = true := by decide +kernel
  have hq' : (parse "//colour/icc").selects (parse "org/colour/lcms.icc") = true := by
    decide +kernel
  obtain ⟨hrefine, hchain⟩ := selects_refined (parse "//*/icc")
  exact ⟨hc, hrefine _ _ _ _ _ hc hr hb (.inr (by decide +kernel)), hq, hq',
    hchain hn _ _ hq hq' (.inl (by decide +kernel))⟩

example : ColourPipeline.selects "*.*" "*" = true ∧ ColourPipeline.selects "*" "icc" = true ∧
    ColourPipeline.selects "*.*" "icc" = false := by
  decide +kernel

end Path

end ColourPipeline
