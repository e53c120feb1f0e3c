import ColourPipeline.Image.Png
import ColourPipeline.Proofs.Image.Array

/-! What filling an array from an image comes to, cell by cell. -/

namespace ColourPipeline

lemma rowMajor_inj {c r x y width : ℕ} (hc : c < width) (hx : x < width)
    (h : r * width + c = y * width + x) : c = x ∧ r = y := by
  have hcol : c = x := by
    have hm := congrArg (· % width) h
    simpa [Nat.mod_eq_of_lt hc, Nat.mod_eq_of_lt hx] using hm
  have hrow : r * width = y * width := by omega
  exact ⟨hcol, Nat.eq_of_mul_eq_mul_right (Nat.zero_lt_of_lt hc) hrow⟩

lemma rowMajor_div {c width : ℕ} (hc : c < width) (r : ℕ) : (r * width + c) / width = r := by
  rw [Nat.mul_comm, Nat.mul_add_div (Nat.zero_lt_of_lt hc), Nat.div_eq_of_lt hc, Nat.add_zero]

lemma rowMajor_mod {c width : ℕ} (hc : c < width) (r : ℕ) : (r * width + c) % width = c := by
  simp [Nat.mod_eq_of_lt hc]

namespace PixelArray

variable {a u : PixelArray} {c r x y : ℕ} {p : Pixel}

@[simp] lemma width_set : (a.set x y p).width = a.width := by
  rw [set]
  split <;> rfl

@[simp] lemma height_set : (a.set x y p).height = a.height := by
  rw [set]
  split <;> rfl

lemma get?_set (ha : a.Shaped) (hx : x < a.width) (hy : y < a.height) :
    (a.set x y p).get? c r = if (c, r) = (x, y) then some p else a.get? c r := by
  have hi : a.index? x y = some (y * a.width + x) := if_pos ⟨hx, hy⟩
  have hlt : y * a.width + x < a.pixels.size :=
    (rowMajor_lt hx hy).trans_eq ha.symm
  simp only [get?, set, hi]
  by_cases hcr : c < a.width ∧ r < a.height
  · have hj : a.index? c r = some (r * a.width + c) := if_pos hcr
    simp only [index?, if_pos hcr, Option.bind_some, Array.getElem?_setIfInBounds]
    by_cases heq : (c, r) = (x, y)
    · obtain ⟨rfl, rfl⟩ := Prod.mk.inj heq
      simp [hlt]
    · rw [if_neg heq, if_neg]
      intro hk
      obtain ⟨rfl, rfl⟩ := rowMajor_inj hx hcr.1 hk
      exact heq rfl
  · have hne : (c, r) ≠ (x, y) := by
      rintro ⟨⟩
      exact hcr ⟨hx, hy⟩
    simp [index?, hcr, hne]

lemma ext_get? (ha : a.Shaped) (hu : u.Shaped) (hw : u.width = a.width) (hh : u.height = a.height)
    (h : ∀ c r, c < a.width → r < a.height → u.get? c r = a.get? c r) : u = a := by
  obtain ⟨_, _, ps⟩ := a
  obtain ⟨w, n, qs⟩ := u
  obtain rfl := hw
  obtain rfl := hh
  congr 1
  refine Array.ext (hu.trans ha.symm) fun k hq hp => ?_
  have hk : k < w * n := hp.trans_eq ha
  have hw : 0 < w := Nat.pos_of_ne_zero fun h0 => by simp [h0] at hk
  have hc : k % w < w := Nat.mod_lt k hw
  have hr : k / w < n := Nat.div_lt_of_lt_mul hk
  have hget := h (k % w) (k / w) hc hr
  simpa [get?, index?, hc, hr, Nat.div_add_mod', hq, hp] using hget

end PixelArray

namespace PixelBounds

def Told (b : PixelBounds) (x : ℕ × ℕ) : Prop :=
  b.x + x.1 < Width.word ∧ b.y + x.2 < Width.word

def Fits (b : PixelBounds) : Prop :=
  b.area = 0 ∨ b.x + b.width ≤ Width.word ∧ b.y + b.height ≤ Width.word

variable {b : PixelBounds}

lemma Fits.told (h : b.Fits) {x : ℕ × ℕ} (hx : x.1 < b.width ∧ x.2 < b.height) : b.Told x := by
  rcases h with h0 | ⟨hw, hh⟩
  · have hlt := rowMajor_lt hx.1 hx.2
    rw [area] at h0
    omega
  · exact ⟨(Nat.add_lt_add_left hx.1 _).trans_le hw, (Nat.add_lt_add_left hx.2 _).trans_le hh⟩

lemma exists_not_told (h : ¬ b.Fits) : ∃ x : ℕ × ℕ, (x.1 < b.width ∧ x.2 < b.height) ∧
    ¬ b.Told x := by
  rw [Fits, not_or, area] at h
  have hw := Nat.pos_of_ne_zero (left_ne_zero_of_mul h.1)
  have hh := Nat.pos_of_ne_zero (right_ne_zero_of_mul h.1)
  -- The last cell has the largest sums.
  refine ⟨(b.width - 1, b.height - 1), ⟨by omega, by omega⟩, fun ⟨hx, hy⟩ => h.2 ⟨?_, ?_⟩⟩
  · dsimp only at hx
    omega
  · dsimp only at hy
    omega

end PixelBounds

namespace Image

open PixelBounds (Told)

variable {i : Image} {b : PixelBounds} {a u : PixelArray} {c r x y : ℕ}

lemma mem_cells {width height : ℕ} : (x, y) ∈ cells width height ↔ x < width ∧ y < height := by
  simp [cells, and_comm]

lemma length_cells (width height : ℕ) : (cells width height).length = width * height := by
  simp [cells, List.length_flatMap, Nat.mul_comm]

structure Copied (i : Image) (b : PixelBounds) (cs : List (ℕ × ℕ)) (a u : PixelArray) : Prop where
  shaped : u.Shaped
  width : u.width = a.width
  height : u.height = a.height
  get? : ∀ c r, u.get? c r =
    if (c, r) ∈ cs then (i.get? (b.x + c) (b.y + r)).or (a.get? c r) else a.get? c r

lemma copyCell_of_told (h : Told b (x, y)) (a : PixelArray) :
    i.copyCell b (x, y) a = .ok () (match i.get? (b.x + x) (b.y + y) with
      | some p => a.set x y p
      | none => a) := by
  rw [copyCell, Stop.sum_of_lt h.1, Stop.sum_of_lt h.2]
  show (match i.get? (b.x + x) (b.y + y) with
    | some p => modify (·.set x y p)
    | none => return : Work Stop PixelArray Unit) a = _
  cases i.get? (b.x + x) (b.y + y) <;> rfl

lemma copyCell_of_not_told (h : ¬ Told b (x, y)) (a : PixelArray) :
    i.copyCell b (x, y) a = .error .overflow a := by
  rw [copyCell]
  by_cases hx : b.x + x < Width.word
  · have hy : Width.word ≤ b.y + y := not_lt.1 fun hy => h ⟨hx, hy⟩
    rw [Stop.sum_of_lt hx, Stop.sum_of_le hy]
    rfl
  · rw [Stop.sum_of_le (not_lt.1 hx)]
    rfl

lemma Copied.step {cs : List (ℕ × ℕ)} (h : Copied i b cs a u) (hx : x < a.width)
    (hy : y < a.height) : Copied i b (cs ++ [(x, y)]) a (match i.get? (b.x + x) (b.y + y) with
      | some p => u.set x y p
      | none => u) := by
  have hmem (c r : ℕ) : (c, r) ∈ cs ++ [(x, y)] ↔ (c, r) ∈ cs ∨ (c, r) = (x, y) := by simp
  cases hp : i.get? (b.x + x) (b.y + y) with
  | none =>
    refine ⟨h.shaped, h.width, h.height, fun c r => ?_⟩
    rw [h.get?]
    by_cases heq : (c, r) = (x, y)
    · obtain ⟨rfl, rfl⟩ := Prod.mk.inj heq
      simp [hp]
    · simp [hmem, heq]
  | some p =>
    refine ⟨h.shaped.set x y p, ?_, ?_, fun c r => ?_⟩
    · exact PixelArray.width_set.trans h.width
    · exact PixelArray.height_set.trans h.height
    · rw [PixelArray.get?_set h.shaped (h.width ▸ hx) (h.height ▸ hy), h.get?]
      by_cases heq : (c, r) = (x, y)
      · obtain ⟨rfl, rfl⟩ := Prod.mk.inj heq
        simp [hp]
      · simp [hmem, heq]

lemma Copied.run {seen : List (ℕ × ℕ)} (h : Copied i b seen a u) (cs : List (ℕ × ℕ))
    (hcs : ∀ x ∈ cs, x.1 < a.width ∧ x.2 < a.height) (ht : ∀ x ∈ cs, Told b x) :
    ∃ v, cs.forM (i.copyCell b) u = .ok () v ∧ Copied i b (seen ++ cs) a v := by
  induction cs generalizing seen u with
  | nil => exact ⟨u, rfl, by rwa [List.append_nil]⟩
  | cons x cs ih =>
    obtain ⟨hx, hy⟩ := hcs x List.mem_cons_self
    obtain ⟨v, hv, hc⟩ := ih (h.step hx hy) (fun y hy => hcs y (List.mem_cons_of_mem _ hy))
      fun y hy => ht y (List.mem_cons_of_mem _ hy)
    refine ⟨v, ?_, by rwa [List.append_assoc] at hc⟩
    show EStateM.bind (i.copyCell b x) _ u = _
    rw [EStateM.bind, copyCell_of_told (ht x List.mem_cons_self)]
    exact hv

lemma forM_overflow {cs : List (ℕ × ℕ)} (h : ∃ x ∈ cs, ¬ Told b x) (a : PixelArray) :
    ∃ v, cs.forM (i.copyCell b) a = .error .overflow v := by
  induction cs generalizing a with
  | nil =>
    obtain ⟨x, hx, -⟩ := h
    cases hx
  | cons x cs ih =>
    show ∃ v, EStateM.bind (i.copyCell b x) _ a = .error .overflow v
    rw [EStateM.bind]
    by_cases hx : Told b x
    · rw [copyCell_of_told hx]
      obtain ⟨y, hy, hn⟩ := h
      rcases List.mem_cons.1 hy with rfl | hy
      · exact absurd hx hn
      · exact ih ⟨y, hy, hn⟩ _
    · rw [copyCell_of_not_told hx]
      exact ⟨a, rfl⟩

def window (i : Image) (b : PixelBounds) : Array Pixel :=
  Array.ofFn (n := b.width * b.height) fun k =>
    (i.get? (b.x + k % b.width) (b.y + k / b.width)).getD .zero

def crop (i : Image) (b : PixelBounds) : PixelArray := ⟨b.width, b.height, i.window b⟩

lemma shaped_crop (i : Image) (b : PixelBounds) : (i.crop b).Shaped := Array.size_ofFn

lemma get?_crop_getD (hc : c < b.width) (hr : r < b.height) :
    (i.crop b).get? c r = some ((i.get? (b.x + c) (b.y + r)).getD .zero) := by
  have hk := rowMajor_lt hc hr
  simp [PixelArray.get?, PixelArray.index?, crop, window, hc, hr, hk, rowMajor_mod hc,
    rowMajor_div hc]

lemma get?_crop {p : Pixel} (hc : c < b.width) (hr : r < b.height)
    (hp : i.get? (b.x + c) (b.y + r) = some p) : (i.crop b).get? c r = some p := by
  rw [get?_crop_getD hc hr, hp, Option.getD_some]

lemma crop_pixel {p : Pixel} (hp : i.get? x y = some p) :
    i.crop ⟨x, y, 1, 1⟩ = ⟨1, 1, #[p]⟩ := by
  simp [crop, window, hp]
  rfl

lemma copyCells_zero (i : Image) (hb : b.Fits) :
    i.copyCells b ⟨b.width, b.height, Array.replicate (b.width * b.height) .zero⟩ =
      .ok () (i.crop b) := by
  set zeros : PixelArray :=
    ⟨b.width, b.height, Array.replicate (b.width * b.height) .zero⟩ with hz
  have hstart : Copied i b [] zeros zeros := ⟨Array.size_replicate, rfl, rfl, fun c r => by simp⟩
  obtain ⟨v, hv, hrun⟩ := hstart.run (cells b.width b.height) (fun x hx => mem_cells.1 hx)
    fun x hx => hb.told (mem_cells.1 hx)
  rw [copyCells, hv]
  congr 1
  refine PixelArray.ext_get? (shaped_crop i b) hrun.shaped hrun.width hrun.height ?_
  intro c r (hc : c < b.width) (hr : r < b.height)
  have hzero : zeros.get? c r = some .zero := by
    have hk := rowMajor_lt hc hr
    simp [hz, PixelArray.get?, PixelArray.index?, hc, hr, hk]
  rw [hrun.get?, List.nil_append, if_pos (mem_cells.2 ⟨hc, hr⟩), hzero, get?_crop_getD hc hr]
  cases i.get? (b.x + c) (b.y + r) <;> rfl

lemma copyCells_overflow (i : Image) (hb : ¬ b.Fits) (a : PixelArray) :
    ∃ v, i.copyCells b a = .error .overflow v := by
  obtain ⟨x, hx, hn⟩ := PixelBounds.exists_not_told hb
  exact forM_overflow ⟨x, mem_cells.2 hx, hn⟩ a

lemma of_fillWithin_ok {room : ℕ} {r : Rectangle} {z : Unit}
    (h : i.fillWithin room r a = .ok z u) :
    ∃ b, r.pixelBounds = .ok b ∧ 16 * b.area < room ∧ b.Fits ∧ u = i.crop b := by
  obtain ⟨b, hb, hr⟩ := Work.of_check_bind_ok h
  obtain ⟨_, v, hv, hu⟩ := Work.of_bind_ok hr
  obtain ⟨hl, rfl⟩ := PixelArray.of_resize_ok (Work.of_counting_ok hv)
  by_cases hf : b.Fits
  · rw [copyCells_zero i hf] at hu
    cases hu
    exact ⟨b, hb, hl, hf, rfl⟩
  · obtain ⟨v, hv⟩ := copyCells_overflow i hf
      ⟨b.width, b.height, Array.replicate (b.width * b.height) .zero⟩
    cases hv.symm.trans hu

lemma of_fillWithin_error {room : ℕ} {r : Rectangle} {e : Stop}
    (h : i.fillWithin room r a = .error e u) :
    (∃ e', r.pixelBounds = .error e' ∧ e = .error e') ∨
      ∃ b, r.pixelBounds = .ok b ∧ ((∃ bytes, e = .error (.outOfMemory bytes)) ∨
        16 * b.area < room ∧ ¬ b.Fits ∧ e = .overflow) := by
  rcases Work.of_check_bind_error h with ⟨e', hb, rfl, -⟩ | ⟨b, hb, hr⟩
  · exact .inl ⟨e', hb, rfl⟩
  refine .inr ⟨b, hb, ?_⟩
  rcases Work.of_bind_error hr with hv | ⟨_, v, hv, hu⟩
  · obtain ⟨e', he, rfl⟩ := Work.of_counting_error hv
    obtain ⟨rfl, -⟩ := PixelArray.of_resize_error he
    exact .inl ⟨_, rfl⟩
  · obtain ⟨hl, rfl⟩ := PixelArray.of_resize_ok (Work.of_counting_ok hv)
    by_cases hf : b.Fits
    · rw [copyCells_zero i hf] at hu
      cases hu
    · obtain ⟨v, hv⟩ := copyCells_overflow i hf
        ⟨b.width, b.height, Array.replicate (b.width * b.height) .zero⟩
      cases hv.symm.trans hu
      exact .inr ⟨hl, hf, rfl⟩

lemma fillWithin_eq_ok {room : ℕ} {r : Rectangle} (hb : r.pixelBounds = .ok b)
    (hl : 16 * b.area < room) (hf : b.Fits) (a : PixelArray) :
    i.fillWithin room r a = .ok () (i.crop b) := by
  have hr : PixelArray.resizeWithin room b.width b.height a =
      .ok () ⟨b.width, b.height, Array.replicate (b.width * b.height) .zero⟩ :=
    if_neg (not_le.2 hl)
  simp only [fillWithin, hb, bind, EStateM.bind, Work.check, Work.lift, Except.mapError,
    Work.counting, hr, copyCells_zero i hf]

structure Full (i : Image) : Prop where
  size : i.pixels.size = i.width * i.height

lemma Full.exists_get? (hi : i.Full) (hx : x < i.width) (hy : y < i.height) :
    ∃ p, i.get? x y = some p := by
  have hk : y * i.width + x < i.pixels.size := hi.size ▸ rowMajor_lt hx hy
  exact ⟨i.pixels[y * i.width + x], by simp [get?, hx, hy, hk]⟩

inductive Made (decoder : Decoder) : Image → Prop
  | ofPixels {width height layout pixels i} (h : ofPixels width height layout pixels = .ok i) :
    Made decoder i
  | filled (width height p) : Made decoder (filled width height p)
  | ofFn (width height f) : Made decoder (ofFn width height f)
  | ofDecoded {d} (h : d.pixels.length = d.width * d.height) : Made decoder (ofDecoded d)
  | decode {bs i} (h : decode decoder bs = .ok i) : Made decoder i

lemma full_of_ofPixels {width height : ℕ} {layout : PixelLayout} {pixels : List Pixel}
    (h : ofPixels width height layout pixels = .ok i) : i.Full := by
  rw [ofPixels] at h
  split at h <;> cases h
  rename_i hl
  exact ⟨by simpa using hl⟩

lemma full_ofDecoded {d : Decoded} (h : d.pixels.length = d.width * d.height) :
    (ofDecoded d).Full := ⟨by simpa [ofDecoded] using h⟩

lemma Made.full {decoder : Decoder}
    (hd : ∀ bs d, decoder bs = some d → d.pixels.length = d.width * d.height)
    (h : Made decoder i) : i.Full := by
  cases h with
  | ofPixels h => exact full_of_ofPixels h
  | filled width height p => exact ⟨Array.size_replicate⟩
  | ofFn width height f => exact ⟨by simp [Image.ofFn, length_cells]⟩
  | ofDecoded h => exact full_ofDecoded h
  | @decode bs i h =>
    rw [Image.decode] at h
    split at h <;> cases h
    exact full_ofDecoded (hd _ _ ‹_›)

lemma getElem?_cells {width height : ℕ} (hx : x < width) (hy : y < height) :
    (cells width height)[y * width + x]? = some (x, y) := by
  induction height with
  | zero => exact absurd hy (Nat.not_lt_zero y)
  | succ height ih =>
    have hc : cells width (height + 1) =
        cells width height ++ (List.range width).map (·, height) := by
      simp [cells, List.range_succ]
    rw [hc]
    rcases Nat.lt_succ_iff_lt_or_eq.1 hy with hlt | rfl
    · rw [List.getElem?_append_left (length_cells width height ▸ rowMajor_lt hx hlt)]
      exact ih hlt
    · rw [List.getElem?_append_right (by rw [length_cells, Nat.mul_comm]; omega), length_cells,
        Nat.mul_comm width, Nat.add_sub_cancel_left]
      simp [hx]

lemma get?_ofFn {width height : ℕ} {f : ℕ → ℕ → Pixel} (hx : x < width) (hy : y < height) :
    (ofFn width height f).get? x y = some (f x y) := by
  simp [get?, ofFn, hx, hy, getElem?_cells hx hy]

/-- An array of the size of a region with, cell by cell, the pixel that an image has there, or
zero where it has none. -/
structure Shows (i : Image) (b : PixelBounds) (u : PixelArray) : Prop where
  width : u.width = b.width
  height : u.height = b.height
  shaped : u.Shaped
  inside : ∀ c r, c < b.width → r < b.height → b.x + c < i.width → b.y + r < i.height →
    ∃ p, i.get? (b.x + c) (b.y + r) = some p ∧ u.get? c r = some p
  outside : ∀ c r, c < b.width → r < b.height → ¬ (b.x + c < i.width ∧ b.y + r < i.height) →
    u.get? c r = some .zero

lemma shows_crop (hi : i.Full) (b : PixelBounds) : Shows i b (i.crop b) := by
  refine ⟨rfl, rfl, shaped_crop i b, fun c r hc hr hx hy => ?_, fun c r hc hr hout => ?_⟩
  · obtain ⟨p, hp⟩ := hi.exists_get? hx hy
    exact ⟨p, hp, get?_crop hc hr hp⟩
  · rw [get?_crop_getD hc hr, get?, if_neg hout, Option.getD_none]

/-- Whatever an array held before, it shows the region it is filled with, and no sum on the way is
too large for 32 bits; what is looked up in an image made of a function is the value of that. -/
theorem fillWithin_shows (decoder : Decoder)
    (hd : ∀ bs d, decoder bs = some d → d.pixels.length = d.width * d.height) :
    (∀ (i : Image) (room : ℕ) (r : Rectangle) (b : PixelBounds) (a : PixelArray),
      Made decoder i → r.pixelBounds = .ok b → b.x + b.width ≤ Width.word →
      b.y + b.height ≤ Width.word →
      ((∃ u, i.fillWithin room r a = .ok () u) ↔ 16 * b.area < room) ∧
      (∀ u, i.fillWithin room r a ≠ .error .overflow u) ∧
      ∀ u, i.fillWithin room r a = .ok () u →
        Shows i b u ∧ ∀ a', i.fillWithin room r a' = .ok () u) ∧
    ∀ (width height : ℕ) (f : ℕ → ℕ → Pixel) (x y : ℕ), x < width → y < height →
      (ofFn width height f).get? x y = some (f x y) := by
  refine ⟨fun i room r b a hi hb hx hy => ?_, fun width height f x y hx hy => get?_ofFn hx hy⟩
  have hf : b.Fits := .inr ⟨hx, hy⟩
  have hroom {u : PixelArray} (h : i.fillWithin room r a = .ok () u) :
      16 * b.area < room ∧ u = i.crop b := by
    obtain ⟨c, hc, hl, -, rfl⟩ := of_fillWithin_ok h
    rw [hb] at hc
    cases hc
    exact ⟨hl, rfl⟩
  refine ⟨⟨fun ⟨u, h⟩ => (hroom h).1, fun hl => ⟨_, fillWithin_eq_ok hb hl hf a⟩⟩, ?_, ?_⟩
  · intro u h
    rcases of_fillWithin_error h with ⟨e, -, he⟩ | ⟨c, hc, ⟨_, he⟩ | ⟨-, hn, -⟩⟩
    · cases he
    · cases he
    · rw [hb] at hc
      cases hc
      exact hn hf
  · intro u h
    obtain ⟨hl, rfl⟩ := hroom h
    exact ⟨shows_crop (hi.full hd) b, fillWithin_eq_ok hb hl hf⟩

lemma whole_ofFractions? {colour : ColourType} {width height : ℕ} {samples : List Float32}
    {d : Decoded} (h : Decoded.ofFractions? colour width height samples = some d) :
    d.pixels.length = d.width * d.height := by
  obtain ⟨pixels, -, h⟩ := Option.bind_eq_some_iff.1 h
  obtain ⟨⟨⟩, hp, h⟩ := Option.bind_eq_some_iff.1 h
  cases h
  exact (Option.guard_eq_some' ()).1 hp

lemma whole_decoded? {bs : Bytes} {d : Decoded} (h : Png.decoded? bs = some d) :
    d.pixels.length = d.width * d.height := by
  simp only [Png.decoded?, Option.bind_eq_bind, Option.bind_eq_some_iff] at h
  -- After the header: its depth and coding, the colours, the rows and the samples in them.
  obtain ⟨-, -, ⟨header, rest⟩, -, h⟩ := h
  obtain ⟨-, -, -, -, depth, -, coding, -, -, -, ⟨colours, rest⟩, -, h⟩ := h
  obtain ⟨data, -, rows, -, ⟨model, samples⟩, -, h⟩ := h
  exact whole_ofFractions? h

def contrast : Bytes := [
  0x89, 0x50, 0x4e, 0x47, 0x0d, 0x0a, 0x1a, 0x0a, 0x00, 0x00, 0x00, 0x0d, 0x49, 0x48, 0x44, 0x52,
  0x00, 0x00, 0x00, 0x02, 0x00, 0x00, 0x00, 0x01, 0x08, 0x00, 0x00, 0x00, 0x00, 0xd1, 0x49, 0x20,
  0x56, 0x00, 0x00, 0x00, 0x0e, 0x49, 0x44, 0x41, 0x54, 0x78, 0x01, 0x01, 0x03, 0x00, 0xfc, 0xff,
  0x00, 0x00, 0xff, 0x01, 0x02, 0x01, 0x00, 0xb7, 0x01, 0x2e, 0xf7, 0x00, 0x00, 0x00, 0x00, 0x49,
  0x45, 0x4e, 0x44, 0xae, 0x42, 0x60, 0x82]

def ramp : Image := ofFn 4 3 fun x y => ⟨Float32.ofNat x, Float32.ofNat y, 0, 1⟩

theorem fillWithin_shows_corner :
    (∃ u, ramp.fillWithin 65 ⟨3, 2, 2, 2⟩ ⟨1, 3, Array.replicate 3 ⟨7, 7, 7, 7⟩⟩ = .ok () u ∧
      Shows ramp ⟨3, 2, 2, 2⟩ u ∧ u.get? 0 0 = some ⟨3, 2, 0, 1⟩ ∧ u.get? 1 0 = some .zero ∧
      ramp.get? 3 2 = some ⟨3, 2, 0, 1⟩) ∧
    ∃ i u, decode Png.decoded? contrast = .ok i ∧ i.fillWithin 33 ⟨1, 0, 2, 1⟩ .empty = .ok () u ∧
      u.get? 0 0 = some ⟨1, 1, 1, 1⟩ ∧ u.get? 1 0 = some .zero := by
  have hshows := fillWithin_shows Png.decoded? fun _ _ => whole_decoded?
  constructor
  · have hb : Rectangle.pixelBounds ⟨3, 2, 2, 2⟩ = .ok ⟨3, 2, 2, 2⟩ := by decide +kernel
    have hlast : (⟨Float32.ofNat 3, Float32.ofNat 2, 0, 1⟩ : Pixel) = ⟨3, 2, 0, 1⟩ := by
      decide +kernel
    obtain ⟨hok, -, hu⟩ := hshows.1 ramp 65 ⟨3, 2, 2, 2⟩ ⟨3, 2, 2, 2⟩
      ⟨1, 3, Array.replicate 3 ⟨7, 7, 7, 7⟩⟩ (.ofFn ..) hb (by decide) (by decide)
    obtain ⟨u, h⟩ := hok.2 (by decide)
    obtain ⟨hs, -⟩ := hu u h
    have hcorner : ramp.get? 3 2 = some ⟨3, 2, 0, 1⟩ :=
      (hshows.2 4 3 _ 3 2 (by decide) (by decide)).trans (congrArg some hlast)
    obtain ⟨p, hp, hup⟩ := hs.inside 0 0 (by decide) (by decide) (by decide) (by decide)
    rw [hcorner] at hp
    cases hp
    exact ⟨u, h, hs, hup, hs.outside 1 0 (by decide) (by decide) (by decide), hcorner⟩
  · obtain ⟨i, hi⟩ : ∃ i, decode Png.decoded? contrast = .ok i := by
      have hd : (decode Png.decoded? contrast).toOption.isSome = true := by decide +kernel
      cases hc : decode Png.decoded? contrast with
      | ok i => exact ⟨i, rfl⟩
      | error e => simp [hc, Except.toOption] at hd
    have hpixels : (decode Png.decoded? contrast).toOption.map (fun i =>
        (i.width, i.height, i.get? 1 0)) = some (2, 1, some ⟨1, 1, 1, 1⟩) := by decide +kernel
    rw [hi] at hpixels
    obtain ⟨hw, hh, hp⟩ : i.width = 2 ∧ i.height = 1 ∧ i.get? 1 0 = some ⟨1, 1, 1, 1⟩ := by
      simpa [Except.toOption] using hpixels
    have hb : Rectangle.pixelBounds ⟨1, 0, 2, 1⟩ = .ok ⟨1, 0, 2, 1⟩ := by decide +kernel
    obtain ⟨hok, -, hu⟩ := hshows.1 i 33 ⟨1, 0, 2, 1⟩ ⟨1, 0, 2, 1⟩ .empty (.decode hi) hb
      (by decide) (by decide)
    obtain ⟨u, h⟩ := hok.2 (by decide)
    obtain ⟨hs, -⟩ := hu u h
    obtain ⟨q, hq, huq⟩ := hs.inside 0 0 (by decide) (by decide) (by simp [hw]) (by simp [hh])
    have hq : i.get? 1 0 = some q := hq
    rw [hp] at hq
    cases hq
    exact ⟨i, u, hi, h, huq, hs.outside 1 0 (by decide) (by decide) (by simp [hw])⟩

end Image

end ColourPipeline
