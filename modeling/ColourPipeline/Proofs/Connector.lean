import ColourPipeline.Connector
import Mathlib

namespace ColourPipeline

inductive Packing where
  | planar
  | interleaved

inductive AlphaMode where
  | premultiplied
  | straight

namespace ConnectorCaps

variable {c d : ConnectorCaps}

def offers (c : ConnectorCaps) : Packing → Bool
  | .planar => c.planar
  | .interleaved => c.interleaved

def declares (c : ConnectorCaps) : AlphaMode → Bool
  | .premultiplied => c.premultipliedAlpha
  | .straight => c.nonpremultipliedAlpha

lemma exists_packing {P : Packing → Prop} : (∃ k, P k) ↔ P .planar ∨ P .interleaved :=
  ⟨fun ⟨k, h⟩ => by cases k <;> simp [h], fun h => h.elim (⟨_, ·⟩) (⟨_, ·⟩)⟩

lemma exists_alphaMode {P : AlphaMode → Prop} : (∃ m, P m) ↔ P .premultiplied ∨ P .straight :=
  ⟨fun ⟨m, h⟩ => by cases m <;> simp [h], fun h => h.elim (⟨_, ·⟩) (⟨_, ·⟩)⟩

lemma sharesLayout_iff :
    c.sharesLayout d = true ↔ ∃ k, c.offers k = true ∧ d.offers k = true := by
  simp [exists_packing, sharesLayout, offers]

lemma declaresAlpha_iff : c.declaresAlpha = true ↔ ∃ m, c.declares m = true := by
  simp [exists_alphaMode, declaresAlpha, declares]

lemma sharesAlpha_iff :
    c.sharesAlpha d = true ↔ ∃ m, c.declares m = true ∧ d.declares m = true := by
  simp [exists_alphaMode, sharesAlpha, declares]

lemma sharesLayout_comm (c d : ConnectorCaps) : c.sharesLayout d = d.sharesLayout c := by
  simp [sharesLayout, Bool.and_comm]

lemma sharesAlpha_comm (c d : ConnectorCaps) : c.sharesAlpha d = d.sharesAlpha c := by
  simp [sharesAlpha, Bool.and_comm]

end ConnectorCaps

namespace ConnectorClash

def mirrored : ConnectorClash → ConnectorClash
  | .category plug socket => .category socket plug
  | .channelRange name low high => .channelRange name low high
  | .disjointRanges a b c d => .disjointRanges c d a b
  | .layout plug socket => .layout socket plug
  | .alpha plug socket => .alpha socket plug

end ConnectorClash

namespace Connector

variable {p s : Connector} {a b c d low high : ℕ}

structure Spans (c : Connector) (low high : ℕ) : Prop where
  minimum : c.minChannels = some low
  maximum : c.maxChannels = some high
  positive : 1 ≤ low
  ordered : low ≤ high

structure Compatible (p s : Connector) : Prop where
  category : selects p.category s.category = true ∨ selects s.category p.category = true
  channels : ∃ a b c d, p.Spans a b ∧ s.Spans c d ∧ ∃ n, (a ≤ n ∧ n ≤ b) ∧ c ≤ n ∧ n ≤ d
  packing : ∃ k, p.caps.offers k = true ∧ s.caps.offers k = true
  alpha : (∃ m, p.caps.declares m = true) → (∃ m, s.caps.declares m = true) →
    ∃ m, p.caps.declares m = true ∧ s.caps.declares m = true

lemma Compatible.symm (h : Compatible p s) : Compatible s p where
  category := h.category.symm
  channels := by
    obtain ⟨a, b, c, d, hp, hs, n, hn, hn'⟩ := h.channels
    exact ⟨c, d, a, b, hs, hp, n, hn', hn⟩
  packing := by
    obtain ⟨k, hp, hs⟩ := h.packing
    exact ⟨k, hs, hp⟩
  alpha := by
    intro hs hp
    obtain ⟨m, hp, hs⟩ := h.alpha hp hs
    exact ⟨m, hs, hp⟩

lemma channelRange?_eq_some : p.channelRange? = some (low, high) ↔ p.Spans low high := by
  constructor
  · intro h
    obtain ⟨l, hl, h⟩ := Option.bind_eq_some_iff.1 h
    obtain ⟨u, hu, h⟩ := Option.bind_eq_some_iff.1 h
    split at h <;> cases h
    rename_i hlu
    exact ⟨hl, hu, hlu.1, hlu.2⟩
  · rintro ⟨hl, hu, hpos, hle⟩
    rw [channelRange?, hl, hu]
    exact if_pos ⟨hpos, hle⟩

lemma Spans.unique (h : p.Spans a b) (h' : p.Spans c d) : a = c ∧ b = d :=
  ⟨Option.some.inj (h.minimum.symm.trans h'.minimum),
    Option.some.inj (h.maximum.symm.trans h'.maximum)⟩

lemma max_le_min_iff : max a c ≤ min b d ↔ ∃ n, (a ≤ n ∧ n ≤ b) ∧ c ≤ n ∧ n ≤ d := by
  constructor
  · intro h
    exact ⟨max a c, ⟨le_max_left _ _, h.trans (min_le_left _ _)⟩, le_max_right _ _,
      h.trans (min_le_right _ _)⟩
  · rintro ⟨n, ⟨ha, hb⟩, hc, hd⟩
    exact (max_le ha hc).trans (le_min hb hd)

lemma compatible_iff_of_spans (hp : p.Spans a b) (hs : s.Spans c d) : Compatible p s ↔
    (selects p.category s.category = true ∨ selects s.category p.category = true) ∧
      max a c ≤ min b d ∧ p.caps.sharesLayout s.caps = true ∧
      (p.caps.declaresAlpha = true → s.caps.declaresAlpha = true →
        p.caps.sharesAlpha s.caps = true) := by
  rw [max_le_min_iff, ConnectorCaps.sharesLayout_iff, ConnectorCaps.sharesAlpha_iff,
    ConnectorCaps.declaresAlpha_iff, ConnectorCaps.declaresAlpha_iff]
  constructor
  · intro h
    obtain ⟨_, _, _, _, hp', hs', hn⟩ := h.channels
    obtain ⟨rfl, rfl⟩ := hp.unique hp'
    obtain ⟨rfl, rfl⟩ := hs.unique hs'
    exact ⟨h.category, hn, h.packing, h.alpha⟩
  · rintro ⟨hcat, hn, hk, hm⟩
    exact ⟨hcat, ⟨a, b, c, d, hp, hs, hn⟩, hk, hm⟩

lemma clash?_eq_none_iff : p.clash? s = none ↔ Compatible p s := by
  by_cases hcat : selects p.category s.category = true ∨ selects s.category p.category = true
  · have hc : (!selects p.category s.category && !selects s.category p.category) = false := by
      simpa using or_iff_not_imp_left.1 hcat
    rw [clash?, hc, if_neg (by simp)]
    cases hp : p.channelRange? with
    | none =>
      refine iff_of_false (by simp) fun h => ?_
      obtain ⟨a, b, _, _, hab, -⟩ := h.channels
      rw [channelRange?_eq_some.2 hab] at hp
      cases hp
    | some r =>
      cases hs : s.channelRange? with
      | none =>
        refine iff_of_false (by simp) fun h => ?_
        obtain ⟨_, _, c, d, -, hcd, -⟩ := h.channels
        rw [channelRange?_eq_some.2 hcd] at hs
        cases hs
      | some q =>
        rw [compatible_iff_of_spans (channelRange?_eq_some.1 hp) (channelRange?_eq_some.1 hs)]
        dsimp only
        split_ifs with hrange hlayout halpha
        · exact iff_of_false (by simp) fun h => absurd h.2.1 (not_le.2 hrange)
        · exact iff_of_false (by simp) fun h => by simp [h.2.2.1] at hlayout
        · refine iff_of_false (by simp) fun h => ?_
          simp only [Bool.and_eq_true, Bool.not_eq_true'] at halpha
          obtain ⟨⟨hpa, hsa⟩, hnone⟩ := halpha
          simp [h.2.2.2 hpa hsa] at hnone
        · exact iff_of_true rfl ⟨hcat, not_lt.1 hrange, by simpa using hlayout,
            fun hpa hsa => by simpa [hpa, hsa] using halpha⟩
  · refine iff_of_false ?_ fun h => hcat h.category
    simp only [not_or, Bool.not_eq_true] at hcat
    simp [clash?, hcat]

lemma clash?_swap (p s : Connector) : s.clash? p = (p.clash? s).map ConnectorClash.mirrored ∨
    p.clash? s = some p.noRange ∧ s.clash? p = some s.noRange := by
  have hcat : (!selects s.category p.category && !selects p.category s.category) =
      (!selects p.category s.category && !selects s.category p.category) := Bool.and_comm _ _
  have halpha : (s.caps.declaresAlpha && p.caps.declaresAlpha && !s.caps.sharesAlpha p.caps) =
      (p.caps.declaresAlpha && s.caps.declaresAlpha && !p.caps.sharesAlpha s.caps) := by
    rw [ConnectorCaps.sharesAlpha_comm, Bool.and_comm s.caps.declaresAlpha]
  unfold clash?
  rw [hcat, halpha, ConnectorCaps.sharesLayout_comm s.caps]
  split
  · exact .inl rfl
  · cases hp : p.channelRange? with
    | none =>
      cases hs : s.channelRange? with
      | none => exact .inr ⟨rfl, rfl⟩
      | some q => exact .inl rfl
    | some r =>
      cases hs : s.channelRange? with
      | none => exact .inl rfl
      | some q =>
        left
        dsimp only
        rw [min_comm q.2, max_comm q.1]
        split_ifs <;> rfl

lemma checkCompatible_eq_ok_iff : p.checkCompatible s = .ok () ↔ Compatible p s := by
  rw [← clash?_eq_none_iff]
  -- With its equation, `rw` would have the categories matched.
  delta checkCompatible
  cases p.clash? s <;> simp

lemma checkCompatible_eq_error_iff {clash : ConnectorClash} :
    p.checkCompatible s = .error (.incompatibleConnector clash) ↔ p.clash? s = some clash := by
  delta checkCompatible
  cases p.clash? s <;> simp

def unranged (name : String) : Connector :=
  { data name with category := "", maxChannels := none }

/-- Connectors may be attached exactly where they have something in common of everything that
counts, whichever is the plug. Which one it is shows in the words of a refusal. -/
theorem checkCompatible_iff :
    (∀ p s : Connector, p.checkCompatible s = .ok () ↔ Compatible p s) ∧
    (∀ p s : Connector, p.checkCompatible s = .ok () ↔ s.checkCompatible p = .ok ()) ∧
    (∀ (p s : Connector) (clash : ConnectorClash),
      p.checkCompatible s = .error (.incompatibleConnector clash) →
        s.checkCompatible p = .error (.incompatibleConnector clash.mirrored) ∨
        clash = p.noRange ∧ s.checkCompatible p = .error (.incompatibleConnector s.noRange)) ∧
    ∃ (p s : Connector) (clash clash' : ConnectorClash),
      p.checkCompatible s = .error (.incompatibleConnector clash) ∧
      s.checkCompatible p = .error (.incompatibleConnector clash') ∧
      clash.message ≠ clash'.message := by
  refine ⟨fun p s => checkCompatible_eq_ok_iff, fun p s => ?_, fun p s clash h => ?_, ?_⟩
  · rw [checkCompatible_eq_ok_iff, checkCompatible_eq_ok_iff]
    exact ⟨Compatible.symm, Compatible.symm⟩
  · rw [checkCompatible_eq_error_iff] at h
    rw [checkCompatible_eq_error_iff, checkCompatible_eq_error_iff]
    rcases clash?_swap p s with hs | ⟨hp, hs⟩
    · exact .inl (by rw [hs, h, Option.map_some])
    · exact .inr ⟨Option.some.inj (h.symm.trans hp), hs⟩
  · exact ⟨unranged "in", unranged "out", .channelRange "in" (some 1) none,
      .channelRange "out" (some 1) none, rfl, rfl, by decide +kernel⟩

def stray : Connector :=
  { (data "in").withChannels 1 3 with
    category := "*", caps := { planar := true, premultipliedAlpha := true } }

def narrow : Connector :=
  { (data "out").withChannels 3 3 with
    category := "org/lab", caps := { planar := true, interleaved := true } }

theorem checkCompatible_iff_stray :
    narrow.checkCompatible stray = .ok () ∧
    (narrow.withChannels 4 3).checkCompatible { stray with minChannels := none } =
      .error (.incompatibleConnector (.channelRange "out" (some 4) (some 3))) := by
  obtain ⟨hiff, hswap, hclash, -⟩ := checkCompatible_iff
  constructor
  · refine (hswap stray narrow).1 ((hiff stray narrow).2 ?_)
    refine ⟨.inl (by decide +kernel), ⟨1, 3, 3, 3, ?_, ?_, 3, by decide, by decide⟩,
      ⟨.planar, rfl, rfl⟩, fun _ ⟨m, hm⟩ => ?_⟩
    · exact ⟨rfl, rfl, by decide, by decide⟩
    · exact ⟨rfl, rfl, by decide, by decide⟩
    · cases m <;> cases hm
  · have h := hclash { stray with minChannels := none } (narrow.withChannels 4 3)
      (.channelRange "in" none (some 3)) (by decide +kernel)
    rcases h with h | ⟨-, h⟩
    · exact absurd h (by decide +kernel)
    · exact h

end Connector

end ColourPipeline
