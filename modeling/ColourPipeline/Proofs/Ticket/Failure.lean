import ColourPipeline.Proofs.Pull.Exact
import ColourPipeline.Proofs.Ticket

/-! What a request that fails leaves of its ticket. -/

namespace ColourPipeline

namespace Ticket

variable {i : Image} {b : PixelBounds} {t u : Ticket} {e : PipelineError}

inductive Late (i : Image) : PipelineError → Prop
  | emptySource (h : i.width = 0 ∨ i.height = 0) : Late i (.invalidRegion .emptySource)
  | unusable (r : Rectangle) : Late i (.invalidRegion (.unusable r))
  | outOfMemory (bytes : ℕ) : Late i (.outOfMemory bytes)

lemma late_of_fill [Memory] {r : Rectangle} {a a' : PixelArray}
    (h : i.fill r a = .error (.error e) a') : Late i e := by
  rcases Image.of_fillWithin_error h with ⟨e', hr, he⟩ | ⟨b, -, ⟨bytes, he⟩ | ⟨-, -, he⟩⟩
  · cases he
    rw [Rectangle.pixelBounds] at hr
    split at hr <;> cases hr
    exact .unusable r
  · cases he
    exact .outOfMemory bytes
  · cases he

lemma late_of_fillPixel [Memory] {x y : ℕ} {p : Pixel} (hp : i.get? x y = some p)
    (h : fillPixel i x y t = .error (.error e) u) : Late i e ∧ ∃ array, u = { t with array } := by
  rcases of_fillPixel_error h with ⟨hn, -⟩ | ⟨bytes, array, he, rfl⟩
  · cases hp.symm.trans hn
  · cases he
    exact ⟨.outOfMemory bytes, array, rfl⟩

lemma late_of_fillRegion [Memory] (hb : t.region.bind (·.pixelBounds) = .ok b)
    (ho : i.width ≠ 0 → i.height ≠ 0 → t.output.width ≠ 0 ∧ t.output.height ≠ 0)
    (h : fillRegion i t = .error (.error e) u) : Late i e ∧ ∃ array, u = { t with array } := by
  rcases of_fillRegion_error h with ⟨hz, he, rfl⟩ | ⟨hz, ⟨e', -, -, h⟩ | ⟨r, m, a, -, -, ha, rfl⟩⟩
  · cases he
    exact ⟨.emptySource hz, u.array, rfl⟩
  · -- The region has bounds, and the output a size: only filling is left to fail.
    obtain ⟨r, hr, hb⟩ := exists_region hb
    rw [not_or] at hz
    rcases h with hn | ⟨r', hr', hm | hn⟩
    · cases hr.symm.trans hn
    · rw [Rectangle.inSource, if_neg (not_or.2 (ho hz.1 hz.2))] at hm
      cases hm
    · cases hr.symm.trans hr'
      cases hb.symm.trans hn
  · exact ⟨late_of_fill ha, a, rfl⟩

lemma sized_adopt (i : Image) (t : Ticket) (hw : i.width ≠ 0) (hh : i.height ≠ 0) :
    (adopt i t).output.width ≠ 0 ∧ (adopt i t).output.height ≠ 0 := by
  rw [adopt]
  split
  · exact ⟨hw, hh⟩
  · rename_i ho
    simpa [ImageDescriptor.isUnsized] using ho

lemma adopt_of_output (ho : u.output = (adopt i t).output) : adopt i u = u := by
  obtain ⟨output, ha, -⟩ := adopt_eq i t
  rw [adopt]
  split
  · rename_i hu
    -- Where an output is still without a size, it is the image's own.
    have hd : u.output = i.descriptor := by
      rw [ho, adopt] at hu ⊢
      split
      · rfl
      · rename_i ht
        rw [if_neg ht] at hu
        exact absurd hu ht
    rw [← hd]
  · rfl

lemma of_fetch_error [Memory] {x y : ℕ} (hi : i.Full)
    (hb : t.region.bind (·.pixelBounds) = .ok b)
    (ho : i.width ≠ 0 → i.height ≠ 0 → t.output.width ≠ 0 ∧ t.output.height ≠ 0)
    (h : fetch i x y t = .error (.error e) u) : Late i e ∧ ∃ array, u = { t with array } := by
  rw [fetch] at h
  split at h
  · rename_i hif
    obtain ⟨p, hp⟩ := hi.exists_get? hif.1 hif.2.1
    exact late_of_fillPixel hp h
  · exact late_of_fillRegion hb ho h

lemma of_fetch_ok [Memory] {x y : ℕ} (h : fetch i x y t = .ok () u) :
    u.cursor = t.cursor ∧ u.exhausted = t.exhausted := by
  rw [fetch] at h
  split at h
  · obtain ⟨p, -, rfl⟩ := of_fillPixel_ok h
    exact ⟨rfl, rfl⟩
  · obtain ⟨r, m, b', d, -, -, -, -, -, rfl⟩ := of_fillRegion_ok h
    exact ⟨rfl, rfl⟩

lemma of_serve_error [Memory] (hi : i.Full) (h : serve i t = .error (.error e) u) :
    (next (adopt i t) = .error (.error e) u ∧ u = adopt i t) ∨
      ∃ b array, Steps b (adopt i t) ∧ CanPass b (adopt i t) ∧ Late i e ∧
        u = { (adopt i t).passed b with array } := by
  rw [serve_eq] at h
  rcases next_cases (adopt i t) with ⟨-, hn⟩ | ⟨-, e', hn⟩ | ⟨b, hs, ⟨hp, hn⟩ | ⟨-, hn⟩⟩
  · rw [hn] at h
    cases h
  · rw [hn] at h
    cases h
    exact .inl ⟨hn, rfl⟩
  · rw [hn] at h
    dsimp only at h
    split at h <;> cases h
    rename_i hf
    have hb : (passed b (adopt i t)).region.bind (·.pixelBounds) = .ok b := by
      rw [region_passed]
      exact hs.bounds
    have ho := sized_adopt i t
    rw [← output_passed (adopt i t) b] at ho
    obtain ⟨hl, array, rfl⟩ := of_fetch_error hi hb ho hf
    exact .inr ⟨b, array, hs, hp, hl, rfl⟩
  · rw [hn] at h
    cases h

structure Refused [Memory] (i : Image) (t : Ticket) (e : PipelineError) (u : Ticket) : Prop where
  step : ∃ v, next (adopt i t) = .error (.error e) v
  place : u.cursor = t.cursor ∧ u.exhausted = t.exhausted
  shown : u.array = t.array ∧ u.origin = t.origin
  again : serve i u = .error (.error e) u

/-- What has become of a ticket behind a batch: after the last one nothing is left to do, and
after any other the next call begins where the batch ends. -/
structure Behind [Memory] (i : Image) (b : PixelBounds) (t u : Ticket) : Prop where
  last : b.area ≤ batchEnd b t →
    u.cursor = t.cursor ∧ u.exhausted = true ∧ serve i u = .ok .completed u
  onward : batchEnd b t < b.area →
    u.cursor = b.pixel (batchEnd b t) ∧ u.exhausted = false ∧
      Ticket.place b t < Ticket.place b u ∧ Ticket.place b u = batchEnd b t ∧
      Steps b (adopt i u) ∧
      ∀ progress w, serve i u = .ok progress w → progress = .advanced ∧
        w.cursor = (u.passed b).cursor ∧ w.exhausted = (u.passed b).exhausted

/-- The cursor had moved past a batch that could not be had then: that batch is not come back
to. -/
structure Passed [Memory] (i : Image) (t : Ticket) (e : PipelineError) (u : Ticket) : Prop where
  step : ∃ v, next (adopt i t) = .ok .advanced v ∧ u.cursor = v.cursor ∧ u.exhausted = v.exhausted
  moved : u.cursor ≠ t.cursor ∨ u.exhausted ≠ t.exhausted
  fault : Late i e
  behind : ∃ b, Steps b (adopt i t) ∧ Behind i b t u

lemma serve_of_next_error [Memory] (ho : adopt i t = t) (h : next t = .error (.error e) t) :
    serve i t = .error (.error e) t := by
  rw [serve_eq, ho, h]

lemma serve_of_exhausted [Memory] (ho : adopt i t = t) (he : t.exhausted = true) :
    serve i t = .ok .completed t := by
  rw [serve_eq, ho, next_of_exhausted he]

lemma behind_of_passed [Memory] (hs : Steps b (adopt i t)) (array : PixelArray) :
    Behind i b t { (adopt i t).passed b with array } := by
  obtain ⟨output, ha, -⟩ := adopt_eq i t
  set u : Ticket := { (adopt i t).passed b with array } with hu
  have ho : adopt i u = u := adopt_of_output (output_passed _ _)
  have hend : batchEnd b (adopt i t) = batchEnd b t := by rw [ha]; rfl
  constructor
  · intro hlast
    have hv := passed_of_le (hend ▸ hlast)
    have he : u.exhausted = true := by rw [hu, hv]
    refine ⟨?_, he, serve_of_exhausted ho he⟩
    rw [hu, hv, ha]
  · intro hlt
    have hv := passed_of_lt (hend.symm ▸ hlt)
    have hc : u.cursor = b.pixel (batchEnd b t) := by rw [hu, hv, ← hend]
    have hx : u.exhausted = false := by
      rw [hu, hv]
      exact hs.unspent
    have hplace : Ticket.place b u = batchEnd b t := by
      rw [Ticket.place, hc]
      exact PixelBounds.rasterIndex_pixel b _
    have hsteps : Steps b u := by
      refine ⟨hx, ?_, ?_⟩
      · have hr : u.region = (adopt i t).region := region_passed _ _
        rw [hr]
        exact hs.bounds
      · rw [hc]
        exact PixelBounds.contains_pixel hlt
    have hbefore : Ticket.place b t < batchEnd b t := by
      have h := place_lt_batchEnd hs.inside
      rwa [hend, ha] at h
    refine ⟨hc, hx, hplace.symm ▸ hbefore, hplace, ho.symm ▸ hsteps, fun progress w hw => ?_⟩
    rcases of_serve_ok hw with ⟨-, hcon, -⟩ | ⟨rfl, c, hs', -, hf⟩
    · rw [ho, hx] at hcon
      cases hcon
    · rw [ho] at hs' hf
      obtain rfl := hsteps.unique hs'
      exact ⟨rfl, of_fetch_ok hf⟩

lemma Behind.moved [Memory] (h : Behind i b t u) (he : t.exhausted = false) :
    u.cursor ≠ t.cursor ∨ u.exhausted ≠ t.exhausted := by
  rcases le_or_gt b.area (batchEnd b t) with hl | hl
  · right
    rw [(h.last hl).2.1, he]
    decide
  · left
    obtain ⟨-, -, hlt, -⟩ := h.onward hl
    intro hc
    rw [Ticket.place, Ticket.place, hc] at hlt
    exact lt_irrefl _ hlt

lemma refused_or_passed [Memory] (hi : i.Full) (h : serve i t = .error (.error e) u) :
    Refused i t e u ∨ Passed i t e u := by
  obtain ⟨output, ha, -⟩ := adopt_eq i t
  rcases of_serve_error hi h with ⟨hn, rfl⟩ | ⟨b, array, hs, hp, hl, rfl⟩
  · refine .inl ⟨⟨_, hn⟩, ?_, ?_, serve_of_next_error (adopt_of_output rfl) hn⟩
    · rw [ha]
      exact ⟨rfl, rfl⟩
    · rw [ha]
      exact ⟨rfl, rfl⟩
  · have hb := behind_of_passed hs array
    have he : t.exhausted = false := by
      have he := hs.unspent
      rwa [ha] at he
    exact .inr ⟨⟨_, hs.next_of_canPass hp, rfl, rfl⟩, hb.moved he, hl, b, hs, hb⟩

end Ticket

namespace Pull

/-- A request that fails has left the cursor in place where it could not move, and only there.
Otherwise its batch is done with: what remains are the batches after it, or nothing. -/
theorem serve_failed [Memory] (s : Stage) (socket : ℕ) (hs : ∀ i, s.image? socket = some i → i.Full)
    (p : Pipeline) (t : Ticket) (e : PipelineError) (u : Pipeline × Ticket)
    (h : serve s socket (p, t) = .error (.error e) u) :
    u.1 = p ∧ ∃ i, s.image? socket = some i ∧
      (Ticket.Refused i t e u.2 ∨ Ticket.Passed i t e u.2) := by
  rw [serve] at h
  cases hi : s.image? socket with
  | none =>
    rw [hi] at h
    cases h
  | some i =>
    rw [hi] at h
    obtain ⟨v, hv, rfl⟩ := Work.of_on_error h
    exact ⟨rfl, i, rfl, Ticket.refused_or_passed (hs i hi) hv⟩

end Pull

namespace Pipeline

def bare : Stage := imageStage (some (.filled 0 0 .zero))

def hopeful : Ticket := .ofRegion (some ⟨0, 0, 2, 1⟩) 0

lemma serve_bare [Memory] : Pull.serve bare 0 ({}, hopeful) =
    .error (.error (.invalidRegion .emptySource)) ({}, { hopeful with exhausted := true }) := rfl

lemma full_of_image {i j : Image} (hj : j.Full) (h : (imageStage (some j)).image? 0 = some i) :
    i.Full := by
  obtain rfl : j = i := Option.some.inj h
  exact hj

section Tight

abbrev tight : Memory := ⟨16⟩

attribute [local instance] tight

def strip : Stage := imageStage (some (.filled 2 1 .zero))

def single : Ticket := .ofRegion none 1

def skipped : Ticket :=
  { single with cursor := (1, 0), output := (Image.filled 2 1 .zero).descriptor }

lemma serve_strip : Pull.serve strip 0 ({}, single) =
    .error (.error (.outOfMemory 16)) ({}, skipped) := rfl

theorem serve_failed_bare :
    Ticket.Passed (.filled 0 0 .zero) hopeful (.invalidRegion .emptySource)
      { hopeful with exhausted := true } ∧
    Ticket.Passed (.filled 2 1 .zero) single (.outOfMemory 16) skipped := by
  have hsize (width height : ℕ) (p : Pixel) : (Image.filled width height p).Full :=
    ⟨Array.size_replicate⟩
  constructor
  · obtain ⟨-, i, h, hr⟩ := Pull.serve_failed bare 0 (fun _ => full_of_image (hsize 0 0 .zero))
      {} hopeful _ _ serve_bare
    obtain rfl : .filled 0 0 .zero = i := Option.some.inj h
    refine hr.resolve_left fun hr => ?_
    have he : true = false := hr.place.2
    cases he
  · obtain ⟨-, i, h, hr⟩ := Pull.serve_failed strip 0 (fun _ => full_of_image (hsize 2 1 .zero))
      {} single _ _ serve_strip
    obtain rfl : .filled 2 1 .zero = i := Option.some.inj h
    refine hr.resolve_left fun hr => ?_
    have hc : ((1, 0) : ℕ × ℕ) = (0, 0) := hr.place.1
    cases hc

theorem not_serve_keeps : ∃ e u, Pull.serve bare 0 ({}, hopeful) = .error (.error e) u ∧
    u.2.exhausted ≠ hopeful.exhausted ∧ Pull.serve bare 0 u = .ok .completed u :=
  ⟨_, _, serve_bare, by decide, rfl⟩

end Tight

end Pipeline

end ColourPipeline
