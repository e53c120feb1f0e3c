import ColourPipeline.Proofs.Ticket
import Mathlib

/-! Calls one after the other, each of them for its own number of pixels. -/

namespace ColourPipeline.Ticket

variable {t : Ticket} {b : PixelBounds} {i : ℕ} {n : UInt64} {ns : ℕ → UInt64}

def offset (b : PixelBounds) (ns : ℕ → UInt64) (k : ℕ) : ℕ := ∑ j ∈ Finset.range k, pace b (ns j)

lemma offset_succ (b : PixelBounds) (ns : ℕ → UInt64) (k : ℕ) :
    offset b ns (k + 1) = offset b ns k + pace b (ns k) := Finset.sum_range_succ _ k

lemma offset_of_const (hn : n ≠ 0) (h : ∀ k, ns k = n) (k : ℕ) : offset b ns k = n.toNat * k := by
  simp [offset, h, pace, hn, Nat.mul_comm]

lemma offset_strictMono (hb : 0 < b.area) (ns : ℕ → UInt64) : StrictMono (offset b ns) := by
  refine strictMono_nat_of_lt_succ fun k => ?_
  have hp := pace_pos hb (ns k)
  rw [offset_succ]
  omega

lemma existsUnique_batch (ns : ℕ → UInt64) (hi : i < b.area) :
    ∃! k, offset b ns k ≤ i ∧ i < min (offset b ns (k + 1)) b.area := by
  have hmono := offset_strictMono (Nat.zero_lt_of_lt hi) ns
  have hall : i ∈ ⋃ k, Set.Ico (offset b ns k) (offset b ns (k + 1)) := by
    have hrange : ¬ BddAbove (Set.range (offset b ns)) :=
      hmono.not_bddAbove_range_of_isSuccArchimedean
    have hcover := iUnion_Ico_map_succ_eq_Ici (fun k => hmono.monotone (Nat.zero_le k)) hrange
    exact hcover ▸ Nat.zero_le i
  obtain ⟨k, hk⟩ := Set.mem_iUnion.1 hall
  refine ⟨k, ⟨hk.1, lt_min hk.2 hi⟩, fun j hj => ?_⟩
  by_contra hne
  have hdisjoint := hmono.monotone.pairwise_disjoint_on_Ico_succ hne
  exact Set.disjoint_left.1 hdisjoint ⟨hj.1, (lt_min_iff.1 hj.2).1⟩ hk

def asked (t : Ticket) (n : UInt64) : Ticket := { t with pixelsPerCall := n }

def after (t : Ticket) (ns : ℕ → UInt64) : ℕ → Ticket
  | 0 => t
  | k + 1 => Work.left (next ((after t ns k).asked (ns k)))

structure At (b : PixelBounds) (i : ℕ) (t : Ticket) : Prop where
  bounds : t.region.bind (·.pixelBounds) = .ok b
  here : i < b.area → t.exhausted = false ∧ t.cursor = b.pixel i
  through : b.area ≤ i → t.exhausted = true

namespace At

lemma asked (h : At b i t) (n : UInt64) : At b i (t.asked n) := ⟨h.bounds, h.here, h.through⟩

lemma steps (h : At b i t) (hi : i < b.area) : Steps b t := by
  obtain ⟨he, hc⟩ := h.here hi
  exact ⟨he, h.bounds, hc ▸ PixelBounds.contains_pixel hi⟩

lemma batchEnd_eq (h : At b i t) (hi : i < b.area) :
    batchEnd b t = i + pace b t.pixelsPerCall := by
  rw [batchEnd, place, (h.here hi).2, PixelBounds.rasterIndex_pixel]

lemma next_of_le (h : At b i t) (hi : b.area ≤ i) : next t = .ok .completed t :=
  next_of_exhausted (h.through hi)

lemma passed (h : At b i t) (hi : i < b.area) :
    At b (i + pace b t.pixelsPerCall) (t.passed b) := by
  rw [← h.batchEnd_eq hi]
  refine ⟨by rw [region_passed, h.bounds], fun hlt => ?_, fun hle => by rw [passed_of_le hle]⟩
  rw [passed_of_lt hlt]
  exact ⟨(h.here hi).1, rfl⟩

lemma canPass (h : At b i t) (hi : i < b.area) (hf : b.Fits)
    (hl : i + pace b t.pixelsPerCall < Width.long) : CanPass b t := by
  rw [CanPass, h.batchEnd_eq hi]
  refine ⟨hl, fun hlt => hf.told ?_⟩
  have hw : 0 < b.width := Nat.pos_of_ne_zero fun h0 => by simp [PixelBounds.area, h0] at hi
  exact ⟨Nat.mod_lt _ hw, Nat.div_lt_of_lt_mul hlt⟩

end At

lemma at_after (h : At b 0 t) (hb : b.Fits)
    (hf : ∀ k, offset b ns k < b.area → offset b ns k + pace b (ns k) < Width.long) (k : ℕ) :
    At b (offset b ns k) (after t ns k) := by
  induction k with
  | zero => exact h
  | succ k ih =>
    have ha := ih.asked (ns k)
    rw [after, offset_succ]
    by_cases hi : offset b ns k < b.area
    · rw [(ha.steps hi).next_of_canPass (ha.canPass hi hb (hf k hi))]
      exact ha.passed hi
    · rw [ha.next_of_le (not_lt.1 hi)]
      -- What a call that finds nothing left was for is counted all the same.
      exact ⟨ha.bounds, fun hlt => by omega, fun _ => ha.through (not_lt.1 hi)⟩

example :
    (List.range 7).map (fun k => (after (.ofRegion (some ⟨1, 1, 3, 2⟩) 1) (fun _ => 1) k).cursor) =
      [(1, 1), (2, 1), (3, 1), (1, 2), (2, 2), (3, 2), (3, 2)] := by decide +kernel

def Fresh (t : Ticket) : Prop := ∃ s : Ticket, t = s.rewind ∨ ∃ roi, t = s.setRegion roi

lemma span_zero (l : Float) : (Rectangle.span 0 l).1 = 0 := by
  have h0 : Decimal.floor? 0 = some 0 := by decide +kernel
  rw [Rectangle.span, h0]
  split <;> rfl

lemma corner_ofSize {width height : ℕ}
    (h : (Rectangle.ofSize width height).pixelBounds? = some b) : (b.x, b.y) = (0, 0) := by
  rw [Rectangle.pixelBounds?] at h
  split at h
  · cases h
  · rw [← Option.some.inj h]
    exact Prod.ext (span_zero _) (span_zero _)

lemma start_of_region (h : t.region.bind (·.pixelBounds) = .ok b) : start t.roi = (b.x, b.y) := by
  obtain ⟨r, hr, hb⟩ := exists_region h
  have hb := of_pixelBounds_ok hb
  rw [of_region_ok hr] at hb
  cases hroi : t.roi with
  | some q =>
    rw [hroi] at hb
    simp [start, show q.pixelBounds? = some b from hb]
  | none =>
    rw [hroi] at hb
    exact (corner_ofSize hb).symm

lemma at_of_fresh (hs : Fresh t) (h : t.region.bind (·.pixelBounds) = .ok b) (hb : 0 < b.area) :
    At b 0 t := by
  obtain ⟨s, hs⟩ : ∃ s : Ticket, t = s.rewind := by
    obtain ⟨s, hs | ⟨roi, hs⟩⟩ := hs
    · exact ⟨s, hs⟩
    · exact ⟨{ s with roi }, hs⟩
  have hstart := start_of_region h
  subst hs
  refine ⟨h, fun _ => ⟨rfl, ?_⟩, fun hle => by omega⟩
  rw [PixelBounds.pixel, Nat.zero_mod, Nat.zero_div]
  exact hstart

structure Sweeps (b : PixelBounds) (ns : ℕ → UInt64) (t : Ticket) : Prop where
  advances : ∀ k, offset b ns k < b.area →
    (after t ns k).cursor = b.pixel (offset b ns k) ∧
    b.contains (after t ns k).cursor.1 (after t ns k).cursor.2 = true ∧
    (after t ns k).cursor.1 < Width.word ∧ (after t ns k).cursor.2 < Width.word ∧
    ∃ u, next ((after t ns k).asked (ns k)) = .ok .advanced u
  completes : ∀ k, b.area ≤ offset b ns k → ∀ n,
    next ((after t ns k).asked n) = .ok .completed ((after t ns k).asked n)
  covers : ∀ x y, b.contains x y = true → ∃! k, offset b ns k ≤ rasterIndex b x y ∧
    rasterIndex b x y < min (offset b ns (k + 1)) b.area
  evenly : ∀ n, n ≠ 0 → (∀ k, ns k = n) → ∀ k,
    (∃ u, next ((after t ns k).asked (ns k)) = .ok .advanced u) ↔ k < b.area ⌈/⌉ n.toNat

def advance? (t : Ticket) (b : PixelBounds) : Option (Except Stop Ticket) :=
  match Stop.sum Width.long (place b t) (pace b t.pixelsPerCall) with
  | .error e => some (.error e)
  | .ok next =>
    if b.area ≤ next then some (.ok { t with exhausted := true })
    else if b.width = 0 then none
    else some do
      let x ← Stop.sum Width.word b.x (next % b.width)
      let y ← Stop.sum Width.word b.y (next / b.width)
      return { t with cursor := (x, y) }

lemma advance?_eq (t : Ticket) (b : PixelBounds) : t.advance? b = some (t.advance b) := by
  rw [advance?, advance]
  show _ = some (Except.bind (Stop.sum Width.long (place b t) (pace b t.pixelsPerCall)) _)
  cases Stop.sum Width.long (place b t) (pace b t.pixelsPerCall) with
  | error e => rfl
  | ok next =>
    dsimp only [Except.bind]
    by_cases ha : b.area ≤ next
    · rw [if_pos ha, if_pos ha]
      rfl
    · rw [if_neg ha, if_neg ha, if_neg fun h0 => ha (by simp [PixelBounds.area, h0])]

lemma sweeps_of_at (h : At b 0 t) (hx : b.x + b.width ≤ Width.word)
    (hy : b.y + b.height ≤ Width.word)
    (hf : ∀ k, offset b ns k < b.area → offset b ns k + pace b (ns k) < Width.long) :
    Sweeps b ns t := by
  have hb : b.Fits := .inr ⟨hx, hy⟩
  have hat := at_after h hb hf
  have hadvances : ∀ k, (∃ u, next ((after t ns k).asked (ns k)) = .ok .advanced u) ↔
      offset b ns k < b.area := by
    intro k
    have ha := (hat k).asked (ns k)
    by_cases hk : offset b ns k < b.area
    · exact iff_of_true ⟨_, (ha.steps hk).next_of_canPass (ha.canPass hk hb (hf k hk))⟩ hk
    · refine iff_of_false (fun ⟨u, hu⟩ => ?_) hk
      rw [ha.next_of_le (not_lt.1 hk)] at hu
      cases hu
  refine ⟨fun k hk => ?_, fun k hk n => ((hat k).asked n).next_of_le hk, fun x y hin => ?_,
    fun n hn hns k => ?_⟩
  · obtain ⟨-, hc⟩ := (hat k).here hk
    have hin := PixelBounds.contains_pixel hk
    rw [← hc] at hin
    obtain ⟨-, -, hw, hh⟩ := PixelBounds.contains_iff.1 hin
    exact ⟨hc, hin, hw.trans_le hx, hh.trans_le hy, (hadvances k).2 hk⟩
  · exact existsUnique_batch ns (PixelBounds.rasterIndex_lt hin)
  · have hpos : 0 < n.toNat := Nat.pos_of_ne_zero fun h0 => hn (UInt64.toNat_inj.1 h0)
    rw [hadvances, offset_of_const hn hns]
    exact (lt_iff_lt_of_le_iff_le (ceilDiv_le_iff_le_mul hpos)).symm

/-- A region is swept in raster order from its first pixel, at whatever pace. Of any ticket, a call
that fails or has nothing left to do leaves all as it was, and one that moves on can do so, unless
a sum on the way is too large. -/
theorem raster_sweep :
    (∀ t b ns, Fresh t → t.region.bind (·.pixelBounds) = .ok b → 0 < b.width → 0 < b.height →
      b.x + b.width ≤ Width.word → b.y + b.height ≤ Width.word →
      (∀ k, offset b ns k < b.area → offset b ns k + pace b (ns k) < Width.long) →
      Sweeps b ns t) ∧
    ∀ t, (∃ e, next t = .error (.error e) t) ∨ next t = .ok .completed t ∨
      ∃ b, t.region.bind (·.pixelBounds) = .ok b ∧
        ((∃ v, t.advance? b = some (.ok v) ∧ next t = .ok .advanced v) ∨
          t.advance? b = some (.error .overflow) ∧ next t = .error .overflow t ∧
            (Width.long ≤ batchEnd b t ∨ batchEnd b t < b.area ∧
              ¬ b.Told (batchEnd b t % b.width, batchEnd b t / b.width))) := by
  refine ⟨fun t b ns hs hb hw hh hx hy hf => ?_, fun t => ?_⟩
  · exact sweeps_of_at (at_of_fresh hs hb (Nat.mul_pos hw hh)) hx hy hf
  · rcases next_cases t with ⟨-, hn⟩ | ⟨-, e, hn⟩ | ⟨b, hs, ⟨hp, hn⟩ | ⟨hp, hn⟩⟩
    · exact .inr (.inl hn)
    · exact .inl ⟨e, hn⟩
    · refine .inr (.inr ⟨b, hs.bounds, .inl ⟨_, ?_, hn⟩⟩)
      rw [advance?_eq, advance_of_canPass hp]
    · refine .inr (.inr ⟨b, hs.bounds, .inr ⟨?_, hn, ?_⟩⟩)
      · rw [advance?_eq, advance_of_not_canPass hp]
      · rwa [CanPass, not_and_or, not_lt, Classical.not_imp] at hp

def corner : Ticket := (ofImage {}).setRegion (some ⟨1, 1, 3, 2⟩)

def uneven (k : ℕ) : UInt64 := if k = 0 then 4 else 0

theorem raster_sweep_uneven : Sweeps ⟨1, 1, 3, 2⟩ uneven corner := by
  have hpace : ∀ k, pace ⟨1, 1, 3, 2⟩ (uneven k) ≤ 6 := by
    intro k
    rw [uneven]
    split <;> decide
  refine raster_sweep.1 corner ⟨1, 1, 3, 2⟩ uneven ⟨ofImage {}, .inr ⟨_, rfl⟩⟩ rfl (by decide)
    (by decide) (by decide) (by decide) fun k hk => ?_
  have hk : offset ⟨1, 1, 3, 2⟩ uneven k < 6 := hk
  have hp := hpace k
  rw [Width.long]
  omega

end ColourPipeline.Ticket
