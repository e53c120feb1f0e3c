import ColourPipeline.Proofs.Image.Fill
import ColourPipeline.Source

/-! One call for a ticket: whether it comes to moving the cursor, and where its batch ends. -/

namespace ColourPipeline

namespace PixelBounds

open Ticket (rasterIndex)

variable {b : PixelBounds} {x y u v k : ℕ}

lemma contains_iff :
    b.contains x y = true ↔ b.x ≤ x ∧ b.y ≤ y ∧ x < b.x + b.width ∧ y < b.y + b.height := by
  simp [contains, and_assoc]

lemma rasterIndex_lt (h : b.contains x y = true) : rasterIndex b x y < b.area := by
  obtain ⟨hx, hy, hw, hh⟩ := contains_iff.1 h
  exact rowMajor_lt (by omega) (by omega)

lemma rasterIndex_inj (h : b.contains x y = true) (h' : b.contains u v = true)
    (hi : rasterIndex b x y = rasterIndex b u v) : x = u ∧ y = v := by
  obtain ⟨hx, hy, hw, -⟩ := contains_iff.1 h
  obtain ⟨hu, hv, hw', -⟩ := contains_iff.1 h'
  have hc : x - b.x < b.width := by omega
  have hc' : u - b.x < b.width := by omega
  obtain ⟨hcol, hrow⟩ := rowMajor_inj hc hc' hi
  omega

def pixel (b : PixelBounds) (k : ℕ) : ℕ × ℕ := (b.x + k % b.width, b.y + k / b.width)

lemma rasterIndex_pixel (b : PixelBounds) (k : ℕ) :
    rasterIndex b (b.pixel k).1 (b.pixel k).2 = k := by
  rw [rasterIndex, pixel, Nat.add_sub_cancel_left, Nat.add_sub_cancel_left, Nat.div_add_mod']

lemma contains_pixel (h : k < b.area) : b.contains (b.pixel k).1 (b.pixel k).2 = true := by
  have hw : 0 < b.width := by
    refine Nat.pos_of_ne_zero fun h0 => ?_
    simp [area, h0] at h
  have hc : k % b.width < b.width := Nat.mod_lt k hw
  have hr : k / b.width < b.height := Nat.div_lt_of_lt_mul h
  exact contains_iff.2 ⟨Nat.le_add_right .., Nat.le_add_right .., Nat.add_lt_add_left hc _,
    Nat.add_lt_add_left hr _⟩

end PixelBounds

lemma Rectangle.area_lt {r : Rectangle} {b : PixelBounds} (h : r.pixelBounds? = some b) :
    b.area < Width.long := by
  have hs : ∀ x l, (span x l).2 ≤ limit := by
    intro x l
    unfold span
    dsimp only
    split
    · exact min_le_right _ _
    · exact le_rfl
  rw [pixelBounds?] at h
  split at h
  · cases h
  · cases h
    calc (span r.x r.width).2 * (span r.y r.height).2 ≤ limit * limit :=
          Nat.mul_le_mul (hs _ _) (hs _ _)
      _ < Width.long := by decide

namespace Ticket

variable {i : Image} {t u : Ticket} {b : PixelBounds} {progress : Progress} {e : Stop}

def place (b : PixelBounds) (t : Ticket) : ℕ := rasterIndex b t.cursor.1 t.cursor.2

def batchEnd (b : PixelBounds) (t : Ticket) : ℕ := place b t + pace b t.pixelsPerCall

def passed (b : PixelBounds) (t : Ticket) : Ticket :=
  if b.area ≤ batchEnd b t then { t with exhausted := true }
  else { t with cursor := b.pixel (batchEnd b t) }

def CanPass (b : PixelBounds) (t : Ticket) : Prop :=
  batchEnd b t < Width.long ∧
    (batchEnd b t < b.area → b.Told (batchEnd b t % b.width, batchEnd b t / b.width))

lemma advance_of_canPass (h : CanPass b t) : t.advance b = .ok (passed b t) := by
  have hsum : Stop.sum Width.long (rasterIndex b t.cursor.1 t.cursor.2)
      (pace b t.pixelsPerCall) = .ok (batchEnd b t) := Stop.sum_of_lt h.1
  rw [passed]
  by_cases ha : b.area ≤ batchEnd b t
  · simp [advance, hsum, bind, Except.bind, ha, pure, Except.pure]
  · obtain ⟨hx, hy⟩ := h.2 (not_le.1 ha)
    simp [advance, hsum, bind, Except.bind, ha, pure, Except.pure, Stop.sum_of_lt hx,
      Stop.sum_of_lt hy, PixelBounds.pixel]

lemma advance_of_not_canPass (h : ¬ CanPass b t) : t.advance b = .error .overflow := by
  rw [CanPass, not_and_or, not_lt] at h
  by_cases hl : batchEnd b t < Width.long
  · have hsum : Stop.sum Width.long (rasterIndex b t.cursor.1 t.cursor.2)
        (pace b t.pixelsPerCall) = .ok (batchEnd b t) := Stop.sum_of_lt hl
    obtain ⟨ha, ht⟩ := Classical.not_imp.1 (h.resolve_left (not_le.2 hl))
    by_cases hx : b.x + batchEnd b t % b.width < Width.word
    · have hy : Width.word ≤ b.y + batchEnd b t / b.width := not_lt.1 fun hy => ht ⟨hx, hy⟩
      simp [advance, hsum, bind, Except.bind, not_le.2 ha, Stop.sum_of_lt hx, Stop.sum_of_le hy]
    · simp [advance, hsum, bind, Except.bind, not_le.2 ha, Stop.sum_of_le (not_lt.1 hx)]
  · have hsum : Stop.sum Width.long (rasterIndex b t.cursor.1 t.cursor.2)
        (pace b t.pixelsPerCall) = .error .overflow := Stop.sum_of_le (not_lt.1 hl)
    simp [advance, hsum, bind, Except.bind]

structure Steps (b : PixelBounds) (t : Ticket) : Prop where
  unspent : t.exhausted = false
  bounds : t.region.bind (·.pixelBounds) = .ok b
  inside : b.contains t.cursor.1 t.cursor.2 = true

lemma Steps.unique {c : PixelBounds} (h : Steps b t) (h' : Steps c t) : b = c :=
  Except.ok.inj (h.bounds.symm.trans h'.bounds)

lemma Steps.place_lt (h : Steps b t) : place b t < b.area := PixelBounds.rasterIndex_lt h.inside

lemma Steps.next_eq (h : Steps b t) : next t = match t.advance b with
    | .ok u => .ok .advanced u
    | .error e => .error e t := by
  simp only [next, bind, EStateM.bind, get, getThe, MonadStateOf.get, EStateM.get, h.unspent,
    h.bounds, h.inside, Work.check, Work.lift, Except.mapError, Bool.false_eq_true, if_false,
    if_true]
  cases t.advance b <;> rfl

lemma Steps.next_of_canPass (h : Steps b t) (hp : CanPass b t) :
    next t = .ok .advanced (passed b t) := by
  rw [h.next_eq, advance_of_canPass hp]

lemma Steps.next_of_not_canPass (h : Steps b t) (hp : ¬ CanPass b t) :
    next t = .error .overflow t := by
  rw [h.next_eq, advance_of_not_canPass hp]

lemma next_of_exhausted (h : t.exhausted = true) : next t = .ok .completed t := by
  simp only [next, bind, EStateM.bind, get, getThe, MonadStateOf.get, EStateM.get, h, if_true]
  rfl

lemma next_of_not_steps (h : ∀ b, ¬ Steps b t) :
    (t.exhausted = true ∧ next t = .ok .completed t) ∨
      t.exhausted = false ∧ ∃ e, next t = .error (.error e) t := by
  by_cases he : t.exhausted = true
  · exact .inl ⟨he, next_of_exhausted he⟩
  have he : t.exhausted = false := by simpa using he
  refine .inr ⟨he, ?_⟩
  simp only [next, bind, EStateM.bind, get, getThe, MonadStateOf.get, EStateM.get, he,
    Bool.false_eq_true, if_false]
  cases hb : t.region.bind (·.pixelBounds) with
  | error e => exact ⟨e, rfl⟩
  | ok b =>
    have hc : b.contains t.cursor.1 t.cursor.2 ≠ true := fun hc => h b ⟨he, hb, hc⟩
    exact ⟨.invalidRegion (.cursorOutside t.cursor.1 t.cursor.2 b), by
      simp only [Work.check, Work.lift, Except.mapError, if_neg hc]
      rfl⟩

lemma next_cases (t : Ticket) :
    (t.exhausted = true ∧ next t = .ok .completed t) ∨
      (t.exhausted = false ∧ ∃ e, next t = .error (.error e) t) ∨ ∃ b, Steps b t ∧
        (CanPass b t ∧ next t = .ok .advanced (passed b t) ∨
          ¬ CanPass b t ∧ next t = .error .overflow t) := by
  by_cases hs : ∃ b, Steps b t
  · obtain ⟨b, hs⟩ := hs
    refine .inr (.inr ⟨b, hs, ?_⟩)
    by_cases hp : CanPass b t
    · exact .inl ⟨hp, hs.next_of_canPass hp⟩
    · exact .inr ⟨hp, hs.next_of_not_canPass hp⟩
  · rcases next_of_not_steps (not_exists.1 hs) with h | h
    · exact .inl h
    · exact .inr (.inl h)

lemma of_next_ok (h : next t = .ok progress u) :
    (progress = .completed ∧ t.exhausted = true ∧ u = t) ∨
      (progress = .advanced ∧ ∃ b, Steps b t ∧ CanPass b t ∧ u = passed b t) := by
  rcases next_cases t with ⟨he, hn⟩ | ⟨-, e, hn⟩ | ⟨b, hs, ⟨hp, hn⟩ | ⟨-, hn⟩⟩
  · cases hn.symm.trans h
    exact .inl ⟨rfl, he, rfl⟩
  · cases hn.symm.trans h
  · cases hn.symm.trans h
    exact .inr ⟨rfl, b, hs, hp, rfl⟩
  · cases hn.symm.trans h

section Serving

variable [Memory]

lemma of_fillPixel_ok {x y : ℕ} {a : Unit} (h : fillPixel i x y t = .ok a u) :
    ∃ p, i.get? x y = some p ∧ u = { t with array := ⟨1, 1, #[p]⟩, origin := (x, y) } := by
  rw [fillPixel] at h
  cases hp : i.get? x y with
  | none =>
    rw [hp] at h
    cases h
  | some p =>
    rw [hp] at h
    obtain ⟨_, v, hr, hu⟩ := Work.of_bind_ok h
    obtain ⟨b, hb, rfl⟩ := Work.of_on_ok hr
    obtain ⟨-, rfl⟩ := PixelArray.of_resize_ok (Work.of_counting_ok hb)
    cases hu
    exact ⟨p, rfl, rfl⟩

lemma of_fillPixel_error {x y : ℕ} {e : Stop} (h : fillPixel i x y t = .error e u) :
    (i.get? x y = none ∧ e = .error (.pixelUnavailable x y) ∧ u = t) ∨
      ∃ bytes array, e = .error (.outOfMemory bytes) ∧ u = { t with array } := by
  rw [fillPixel] at h
  cases hp : i.get? x y with
  | none =>
    rw [hp] at h
    cases h
    exact .inl ⟨rfl, rfl, rfl⟩
  | some p =>
    rw [hp] at h
    rcases Work.of_bind_error h with h | ⟨_, _, -, h⟩
    · obtain ⟨a, ha, rfl⟩ := Work.of_on_error h
      obtain ⟨e', he, rfl⟩ := Work.of_counting_error ha
      obtain ⟨rfl, -⟩ := PixelArray.of_resize_error he
      exact .inr ⟨_, a, rfl, rfl⟩
    · cases h

lemma of_fillRegion_ok {a : Unit} (h : fillRegion i t = .ok a u) :
    ∃ r m b d, t.region = .ok r ∧
      r.inSource t.output.width t.output.height i.width i.height = .ok m ∧
      r.pixelBounds = .ok b ∧ m.pixelBounds = .ok d ∧ d.Fits ∧
      u = { t with array := i.crop d, origin := (b.x, b.y) } := by
  rw [fillRegion] at h
  split at h
  · cases h
  obtain ⟨r, hr, h₁⟩ := Work.of_check_bind_ok h
  obtain ⟨m, hm, h₂⟩ := Work.of_check_bind_ok h₁
  obtain ⟨b, hb, h₃⟩ := Work.of_check_bind_ok h₂
  obtain ⟨_, v, hf, hu⟩ := Work.of_bind_ok h₃
  obtain ⟨c, hc, rfl⟩ := Work.of_on_ok hf
  obtain ⟨d, hd, -, hfit, rfl⟩ := Image.of_fillWithin_ok hc
  cases hu
  exact ⟨r, m, b, d, hr, hm, hb, hd, hfit, rfl⟩

lemma of_fillRegion_error {e : Stop} (h : fillRegion i t = .error e u) :
    ((i.width = 0 ∨ i.height = 0) ∧ e = .error (.invalidRegion .emptySource) ∧ u = t) ∨
      ¬ (i.width = 0 ∨ i.height = 0) ∧
        ((∃ e', e = .error e' ∧ u = t ∧ (t.region = .error e' ∨ ∃ r, t.region = .ok r ∧
            (r.inSource t.output.width t.output.height i.width i.height = .error e' ∨
              r.pixelBounds = .error e'))) ∨
          ∃ r m array, t.region = .ok r ∧
            r.inSource t.output.width t.output.height i.width i.height = .ok m ∧
            i.fill m t.array = .error e array ∧ u = { t with array }) := by
  rw [fillRegion] at h
  split at h
  · rename_i hz
    cases h
    exact .inl ⟨hz, rfl, rfl⟩
  rename_i hz
  refine .inr ⟨hz, ?_⟩
  rcases Work.of_check_bind_error h with ⟨e', hr, he, hu⟩ | ⟨r, hr, h⟩
  · exact .inl ⟨e', he, hu, .inl hr⟩
  rcases Work.of_check_bind_error h with ⟨e', hm, he, hu⟩ | ⟨m, hm, h⟩
  · exact .inl ⟨e', he, hu, .inr ⟨r, hr, .inl hm⟩⟩
  rcases Work.of_check_bind_error h with ⟨e', hb, he, hu⟩ | ⟨b, -, h⟩
  · exact .inl ⟨e', he, hu, .inr ⟨r, hr, .inr hb⟩⟩
  rcases Work.of_bind_error h with h | ⟨_, _, -, h⟩
  · obtain ⟨a, ha, rfl⟩ := Work.of_on_error h
    exact .inr ⟨r, m, a, hr, hm, ha, rfl⟩
  · cases h

def fetch (i : Image) (x y : ℕ) : Work Stop Ticket Unit := fun v =>
  if x < i.width ∧ y < i.height ∧ v.pixelsPerCall = 1 then fillPixel i x y v else fillRegion i v

lemma serve_eq (i : Image) (t : Ticket) : serve i t =
    match next (adopt i t) with
    | .ok .advanced v =>
      (match fetch i (adopt i t).cursor.1 (adopt i t).cursor.2 v with
        | .ok () w => .ok .advanced w
        | .error e w => .error e w)
    | r => r := by
  show EStateM.bind next _ (adopt i t) = _
  rw [EStateM.bind]
  cases next (adopt i t) with
  | error e v => rfl
  | ok progress v =>
    cases progress with
    | completed => rfl
    | unchanged => rfl
    | advanced =>
      dsimp only
      rw [fetch, if_neg (by simp)]
      show (if _ then _ else _ : Work Stop Ticket Progress) v = _
      by_cases hif : (adopt i t).cursor.1 < i.width ∧ (adopt i t).cursor.2 < i.height ∧
          v.pixelsPerCall = 1
      · rw [if_pos hif, if_pos hif]
        show EStateM.bind (fillPixel i _ _) _ v = _
        rw [EStateM.bind]
        cases fillPixel i (adopt i t).cursor.1 (adopt i t).cursor.2 v <;> rfl
      · rw [if_neg hif, if_neg hif]
        show EStateM.bind (fillRegion i) _ v = _
        rw [EStateM.bind]
        cases fillRegion i v <;> rfl

lemma of_serve_ok (h : serve i t = .ok progress u) :
    (progress = .completed ∧ (adopt i t).exhausted = true ∧ u = adopt i t) ∨
      (progress = .advanced ∧ ∃ b, Steps b (adopt i t) ∧ CanPass b (adopt i t) ∧
        fetch i (adopt i t).cursor.1 (adopt i t).cursor.2 (passed b (adopt i t)) = .ok () u) := by
  rw [serve_eq] at h
  cases hn : next (adopt i t) with
  | error e v =>
    rw [hn] at h
    cases h
  | ok first v =>
    rw [hn] at h
    rcases of_next_ok hn with ⟨rfl, he, rfl⟩ | ⟨rfl, b, hs, hp, rfl⟩
    · cases h
      exact .inl ⟨rfl, he, rfl⟩
    · dsimp only at h
      split at h <;> cases h
      exact .inr ⟨rfl, b, hs, hp, ‹_›⟩

end Serving

/-- What stays of a ticket while a region of an image is rendered with it: the bounds of the
region, which the scaling from an output of the image's size to the image leaves alone. -/
structure Tours (i : Image) (b : PixelBounds) (t : Ticket) : Prop where
  sized : t.output.isUnsized = true ∨ t.output.width = i.width ∧ t.output.height = i.height
  bounds : (t.roi.getD (.ofSize i.width i.height)).pixelBounds? = some b
  scaled : (t.roi.getD (.ofSize i.width i.height)).scaled
    (Float.ofNat i.width / Float.ofNat i.width) (Float.ofNat i.height / Float.ofNat i.height) =
      t.roi.getD (.ofSize i.width i.height)
  inside : b.x + b.width ≤ i.width ∧ b.y + b.height ≤ i.height

def batch (t : Ticket) (b : PixelBounds) : PixelBounds :=
  if t.pixelsPerCall = 1 then ⟨t.cursor.1, t.cursor.2, 1, 1⟩ else b

lemma adopt_eq (i : Image) (t : Ticket) : ∃ output, adopt i t = { t with output } ∧
    ((t.output.isUnsized = true ∨ t.output.width = i.width ∧ t.output.height = i.height) →
      output.width = i.width ∧ output.height = i.height) := by
  rw [adopt]
  split
  · exact ⟨i.descriptor, rfl, fun _ => ⟨rfl, rfl⟩⟩
  · rename_i h
    exact ⟨t.output, rfl, fun hs => hs.resolve_left h⟩

lemma passed_output (t : Ticket) (output : ImageDescriptor) (b : PixelBounds) :
    ({ t with output } : Ticket).passed b = { t.passed b with output } := by
  have he : ({ t with output } : Ticket).batchEnd b = t.batchEnd b := rfl
  rw [passed, passed, he]
  split <;> rfl

@[simp] lemma roi_passed (t : Ticket) (b : PixelBounds) : (t.passed b).roi = t.roi := by
  rw [passed]
  split <;> rfl

@[simp] lemma output_passed (t : Ticket) (b : PixelBounds) :
    (t.passed b).output = t.output := by
  rw [passed]
  split <;> rfl

@[simp] lemma region_passed (t : Ticket) (b : PixelBounds) :
    (t.passed b).region = t.region := by
  rw [region, region, roi_passed, output_passed]

@[simp] lemma pixelsPerCall_passed (t : Ticket) (b : PixelBounds) :
    (t.passed b).pixelsPerCall = t.pixelsPerCall := by
  rw [passed]
  split <;> rfl

lemma of_region_ok {r : Rectangle} (h : t.region = .ok r) :
    r = t.roi.getD (.ofSize t.output.width t.output.height) := by
  rw [region] at h
  cases hr : t.roi with
  | some q =>
    rw [hr] at h
    cases h
    rfl
  | none =>
    simp only [hr] at h
    split at h <;> cases h
    rfl

lemma of_pixelBounds_ok {r : Rectangle} (h : r.pixelBounds = .ok b) : r.pixelBounds? = some b := by
  rw [Rectangle.pixelBounds] at h
  cases hb : r.pixelBounds? with
  | none => simp [hb] at h
  | some c =>
    rw [hb] at h
    cases h
    rfl

lemma exists_region (h : t.region.bind (·.pixelBounds) = .ok b) :
    ∃ r, t.region = .ok r ∧ r.pixelBounds = .ok b := by
  cases hr : t.region with
  | error e =>
    rw [hr] at h
    cases h
  | ok r =>
    rw [hr] at h
    exact ⟨r, rfl, h⟩

lemma Tours.congr (h : Tours i b t) (hr : u.roi = t.roi)
    (ho : u.output.isUnsized = true ∨ u.output.width = i.width ∧ u.output.height = i.height) :
    Tours i b u := ⟨ho, hr ▸ h.bounds, hr ▸ h.scaled, h.inside⟩

lemma Tours.eq_bounds {c : PixelBounds} (h : Tours i b t)
    (hc : (t.roi.getD (.ofSize i.width i.height)).pixelBounds = .ok c) : c = b := by
  have hb := of_pixelBounds_ok hc
  rw [h.bounds] at hb
  exact (Option.some.inj hb).symm

theorem Tours.serve [Memory] (h : Tours i b t) (hs : Ticket.serve i t = .ok progress u) :
    (progress = .completed ∧ t.exhausted = true) ∨
      (progress = .advanced ∧ t.exhausted = false ∧ b.contains t.cursor.1 t.cursor.2 = true ∧
        ∃ output, output.width = i.width ∧ output.height = i.height ∧ u = { t.passed b with
          output
          array := i.crop (t.batch b)
          origin := ((t.batch b).x, (t.batch b).y) }) := by
  obtain ⟨output, ha, ho⟩ := adopt_eq i t
  obtain ⟨hw, hh⟩ := ho h.sized
  rcases of_serve_ok hs with ⟨rfl, he, rfl⟩ | ⟨rfl, c, hstep, -, hf⟩
  · rw [ha] at he
    exact .inl ⟨rfl, he⟩
  right
  rw [ha] at hstep hf
  have hregion : ∀ r, ({ t with output } : Ticket).region = .ok r →
      r = t.roi.getD (.ofSize i.width i.height) := by
    intro r hr
    rw [of_region_ok hr, ← hw, ← hh]
  obtain rfl : c = b := by
    obtain ⟨r, hr, hc⟩ := exists_region hstep.bounds
    exact h.eq_bounds (hregion r hr ▸ hc)
  have hin : c.contains t.cursor.1 t.cursor.2 = true := hstep.inside
  obtain ⟨-, -, hx, hy⟩ := PixelBounds.contains_iff.1 hin
  have hx : t.cursor.1 < i.width := lt_of_lt_of_le hx h.inside.1
  have hy : t.cursor.2 < i.height := lt_of_lt_of_le hy h.inside.2
  rw [passed_output, fetch] at hf
  refine ⟨rfl, hstep.unspent, hin, output, hw, hh, ?_⟩
  by_cases hone : t.pixelsPerCall = 1
  · rw [if_pos ⟨hx, hy, (pixelsPerCall_passed t c).trans hone⟩] at hf
    obtain ⟨p, hp, rfl⟩ := of_fillPixel_ok hf
    rw [batch, if_pos hone, Image.crop_pixel hp]
  · rw [if_neg fun hc => hone ((pixelsPerCall_passed t c).symm.trans hc.2.2)] at hf
    obtain ⟨r, m, d, d', hr, hm, hd, hd', -, rfl⟩ := of_fillRegion_ok hf
    -- The output has the image's size by now, so that the region of the image is the ticket's.
    obtain rfl : r = t.roi.getD (.ofSize i.width i.height) := by
      rw [of_region_ok hr, ← hw, ← hh]
      simp
    obtain rfl := h.eq_bounds hd
    rw [Rectangle.inSource] at hm
    split at hm
    · cases hm
    · dsimp only at hm
      rw [hw, hh, h.scaled] at hm
      cases hm
      obtain rfl := h.eq_bounds hd'
      rw [batch, if_neg hone]

section Cursor

lemma pace_pos (hb : 0 < b.area) (n : UInt64) : 0 < pace b n := by
  rw [pace]
  split
  · exact hb
  · rename_i hn
    exact Nat.pos_of_ne_zero fun h => hn (UInt64.toNat_inj.1 h)

lemma pace_lt (hb : b.area < Width.long) (n : UInt64) : pace b n < Width.long := by
  rw [pace]
  split
  · exact hb
  · exact n.toNat_lt

lemma place_lt_batchEnd (h : b.contains t.cursor.1 t.cursor.2 = true) :
    place b t < batchEnd b t :=
  Nat.lt_add_of_pos_right (pace_pos (Nat.zero_lt_of_lt (PixelBounds.rasterIndex_lt h)) _)

lemma place_pixel (b : PixelBounds) (t : Ticket) (k : ℕ) :
    place b { t with cursor := b.pixel k } = k := PixelBounds.rasterIndex_pixel b k

lemma passed_of_le (h : b.area ≤ batchEnd b t) : t.passed b = { t with exhausted := true } :=
  if_pos h

lemma passed_of_lt (h : batchEnd b t < b.area) :
    t.passed b = { t with cursor := b.pixel (batchEnd b t) } := if_neg (not_le.2 h)

lemma place_passed (h : batchEnd b t < b.area) : place b (t.passed b) = batchEnd b t := by
  rw [passed_of_lt h, place_pixel]

def Reached (b : PixelBounds) (t : Ticket) (x y : ℕ) : Prop :=
  b.contains x y = true ∧ (t.exhausted = true ∨ rasterIndex b x y < place b t)

lemma reached_passed {x y : ℕ} (he : t.exhausted = false)
    (hc : b.contains t.cursor.1 t.cursor.2 = true) (h : Reached b (t.passed b) x y) :
    Reached b t x y ∨ (t.batch b).contains x y = true := by
  obtain ⟨hin, h⟩ := h
  by_cases hone : t.pixelsPerCall = 1
  · have hend : batchEnd b t = place b t + 1 := by
      rw [batchEnd, hone]
      rfl
    have hle : rasterIndex b x y ≤ place b t := by
      rcases le_or_gt b.area (batchEnd b t) with ha | ha
      · have hi := PixelBounds.rasterIndex_lt hin
        omega
      · rw [place_passed ha, passed_of_lt ha, he] at h
        have hi := h.resolve_left (by simp)
        omega
    rcases hle.lt_or_eq with hlt | heq
    · exact .inl ⟨hin, .inr hlt⟩
    · obtain ⟨rfl, rfl⟩ := PixelBounds.rasterIndex_inj hin hc heq
      right
      simp [batch, hone, PixelBounds.contains]
  · right
    rwa [batch, if_neg hone]

def remaining (b : PixelBounds) (t : Ticket) : ℕ :=
  if t.exhausted then 0 else b.area - place b t

lemma remaining_passed (he : t.exhausted = false)
    (hc : b.contains t.cursor.1 t.cursor.2 = true) :
    remaining b (t.passed b) < remaining b t := by
  have hi : place b t < b.area := PixelBounds.rasterIndex_lt hc
  have hr : remaining b t = b.area - place b t := by simp [remaining, he]
  rcases le_or_gt b.area (batchEnd b t) with ha | ha
  · rw [hr, passed_of_le ha]
    simp only [remaining, if_pos]
    omega
  · have hlt := place_lt_batchEnd hc
    have hn : remaining b (t.passed b) = b.area - batchEnd b t := by
      rw [remaining, place_passed ha, passed_of_lt ha]
      simp [he]
    omega

end Cursor

end Ticket

end ColourPipeline
