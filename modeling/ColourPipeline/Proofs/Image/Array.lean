import ColourPipeline.Image.Array
import ColourPipeline.Proofs.Work

/-! Arrays hold as many pixels as their size says, unless one could not be resized. -/

namespace ColourPipeline

lemma rowMajor_lt {c r width height : ℕ} (hc : c < width) (hr : r < height) :
    r * width + c < width * height := by
  calc r * width + c < r * width + width := Nat.add_lt_add_left hc _
    _ = width * (r + 1) := by ring
    _ ≤ width * height := Nat.mul_le_mul_left _ hr

namespace PixelArray

inductive Edit where
  | resize (room width height : ℕ)
  | set (x y : ℕ) (p : Pixel)
  | change (f : Array Pixel → ℕ → Pixel)
  | copy

def edit (a : PixelArray) : Edit → PixelArray
  | .resize room width height => Work.left (resizeWithin room width height a)
  | .set x y p => a.set x y p
  | .change f => { a with pixels := Array.ofFn (n := a.size) fun k => f a.pixels k }
  | .copy => a

def run (es : List Edit) (a : PixelArray) : PixelArray := es.foldl edit a

def Shaped (a : PixelArray) : Prop := a.size = a.width * a.height

structure InBounds (a : PixelArray) : Prop where
  pixel : ∀ x y k, a.index? x y = some k → k < a.size
  row : ∀ y k, a.index? 0 y = some k → k + a.width ≤ a.size

variable {a u : PixelArray} {room width height : ℕ} {e : PipelineError}

lemma resizeWithin_eq_error_iff : (∃ e u, resizeWithin room width height a = .error e u) ↔
    room ≤ 16 * (width * height) := by
  dsimp only [resizeWithin]
  split
  · exact iff_of_true ⟨_, _, rfl⟩ ‹_›
  · exact iff_of_false (fun ⟨_, _, h⟩ => by cases h) ‹_›

lemma of_resize_ok {x : Unit} (h : resizeWithin room width height a = .ok x u) :
    16 * (width * height) < room ∧
      u = ⟨width, height, Array.replicate (width * height) .zero⟩ := by
  simp only [resizeWithin] at h
  split at h
  · cases h
  · rename_i hl
    cases h
    exact ⟨not_le.1 hl, rfl⟩

lemma of_resize_error (h : resizeWithin room width height a = .error e u) :
    e = .outOfMemory (min (16 * (width * height)) (Width.long - 1)) ∧
      u = { a with pixels := #[] } := by
  simp only [resizeWithin] at h
  split at h <;> cases h
  exact ⟨rfl, rfl⟩

lemma shaped_empty : empty.Shaped := rfl

lemma shaped_of_resize {x : Unit} (h : resizeWithin room width height a = .ok x u) :
    u.Shaped := by
  obtain ⟨-, rfl⟩ := of_resize_ok h
  exact Array.size_replicate

lemma shaped_of_allocate (h : allocateWithin room width height = .ok a) : a.Shaped := by
  rw [allocateWithin] at h
  split at h
  · rename_i hr
    cases h
    exact shaped_of_resize hr
  · cases h

lemma shaped_of_resize_error_iff (h : resizeWithin room width height a = .error e u) :
    u.Shaped ↔ a.width * a.height = 0 := by
  obtain ⟨-, rfl⟩ := of_resize_error h
  exact eq_comm

lemma Shaped.set (h : a.Shaped) (x y : ℕ) (p : Pixel) : (a.set x y p).Shaped := by
  rw [PixelArray.set]
  split
  · exact (Array.size_setIfInBounds ..).trans h
  · exact h

lemma Shaped.edit (h : a.Shaped) {step : Edit}
    (hs : ∀ room width height, step = .resize room width height →
      (∃ e u, resizeWithin room width height a = .error e u) → a.width * a.height = 0) :
    (a.edit step).Shaped := by
  cases step with
  | resize room width height =>
    show (Work.left (resizeWithin room width height a)).Shaped
    cases hr : resizeWithin room width height a with
    | ok x u => exact shaped_of_resize hr
    | error e u => exact (shaped_of_resize_error_iff hr).2 (hs _ _ _ rfl ⟨e, u, hr⟩)
  | set x y p => exact h.set x y p
  | change f => exact (Array.size_ofFn).trans h
  | copy => exact h

lemma shaped_or_empty_edit (h : a.Shaped ∨ a.size = 0) (step : Edit) :
    (a.edit step).Shaped ∨ (a.edit step).size = 0 := by
  cases step with
  | resize room width height =>
    show (Work.left (resizeWithin room width height a)).Shaped ∨
      (Work.left (resizeWithin room width height a)).size = 0
    cases hr : resizeWithin room width height a with
    | ok x u => exact .inl (shaped_of_resize hr)
    | error e u =>
      obtain ⟨-, rfl⟩ := of_resize_error hr
      exact .inr rfl
  | set x y p =>
    refine h.imp (·.set x y p) fun hz => ?_
    show (a.set x y p).size = 0
    rw [PixelArray.set]
    split
    · exact (Array.size_setIfInBounds ..).trans hz
    · exact hz
  | change f => exact h.imp Array.size_ofFn.trans Array.size_ofFn.trans
  | copy => exact h

lemma inBounds_iff (h : a.Shaped ∨ a.size = 0) : a.InBounds ↔ a.Shaped := by
  constructor
  · intro hb
    rcases h with hs | hz
    · exact hs
    by_contra hs
    -- With none stored, and a size that is not that of an empty array, the first one is missing.
    have hne : a.width * a.height ≠ 0 := fun hwh => hs (hz.trans hwh.symm)
    have hw := Nat.pos_of_ne_zero (left_ne_zero_of_mul hne)
    have hh := Nat.pos_of_ne_zero (right_ne_zero_of_mul hne)
    have hlt := hb.pixel 0 0 _ (if_pos ⟨hw, hh⟩)
    omega
  · intro hs
    refine ⟨fun x y k hk => ?_, fun y k hk => ?_⟩
    · rw [index?] at hk
      split at hk <;> cases hk
      rename_i hxy
      rw [hs]
      exact rowMajor_lt hxy.1 hxy.2
    · rw [index?] at hk
      split at hk <;> cases hk
      rename_i hy
      rw [hs]
      calc y * a.width + 0 + a.width = a.width * (y + 1) := by ring
        _ ≤ a.width * a.height := Nat.mul_le_mul_left _ hy.2

lemma run_concat (past : List Edit) (step : Edit) (a : PixelArray) :
    run (past ++ [step]) a = (run past a).edit step :=
  List.foldl_concat ..

lemma shaped_or_empty_run (h : a.Shaped) (es : List Edit) :
    (run es a).Shaped ∨ (run es a).size = 0 := by
  induction es using List.reverseRecOn with
  | nil => exact .inl h
  | append_singleton past step ih =>
    rw [run_concat]
    exact shaped_or_empty_edit ih step

/-- An array holds as many pixels as its size says, and is asked for no others, exactly as long as
no resize fails while there are some: it then loses them and keeps the size. -/
theorem shaped_run_iff (a : PixelArray)
    (ha : a = empty ∨ ∃ room width height, allocateWithin room width height = .ok a)
    (es : List Edit) :
    ((∀ past, past <+: es → (run past a).Shaped) ↔
        ∀ past room width height, past ++ [.resize room width height] <+: es →
          (∃ e u, resizeWithin room width height (run past a) = .error e u) →
            (run past a).width * (run past a).height = 0) ∧
      ∀ past, past <+: es → ((run past a).InBounds ↔ (run past a).Shaped) := by
  have ha : a.Shaped := by
    rcases ha with rfl | ⟨room, width, height, h⟩
    · exact shaped_empty
    · exact shaped_of_allocate h
  refine ⟨⟨?_, ?_⟩, fun past _ => inBounds_iff (shaped_or_empty_run ha past)⟩
  · rintro h past room width height hp ⟨e, u, hr⟩
    have hnext := h _ hp
    rw [run_concat] at hnext
    have hu : (run past a).edit (.resize room width height) = u := by
      rw [edit, hr, Work.left]
    rw [hu] at hnext
    exact (shaped_of_resize_error_iff hr).1 hnext
  · intro h past hp
    induction past using List.reverseRecOn with
    | nil => exact ha
    | append_singleton past step ih =>
      rw [run_concat]
      refine (ih ((List.prefix_append past _).trans hp)).edit ?_
      rintro room width height rfl hr
      exact h past room width height hp hr

theorem shaped_run_iff_refused : allocateWithin 64 1 1 = .ok ⟨1, 1, #[.zero]⟩ ∧
    ¬ ∀ past, past <+: [.set 0 0 ⟨1, 1, 1, 1⟩, .resize 64 2 2] →
      (run past ⟨1, 1, #[.zero]⟩).Shaped := by
  have ha : allocateWithin 64 1 1 = .ok ⟨1, 1, #[.zero]⟩ := rfl
  refine ⟨ha, fun hs => ?_⟩
  have hzero := (shaped_run_iff _ (.inr ⟨64, 1, 1, ha⟩) _).1.1 hs
    [.set 0 0 ⟨1, 1, 1, 1⟩] 64 2 2 (List.prefix_refl _) (resizeWithin_eq_error_iff.2 (by decide))
  exact absurd hzero (by decide)

theorem not_inBounds_run_refused :
    let a := run [.resize 0x10000000000 1 1, .resize 0x10000000000 0xffffffff 0xffffffff] empty
    a.index? 0 0 = some 0 ∧ a.size = 0 ∧ a.width * a.height = 1 := by
  decide +kernel

end PixelArray

end ColourPipeline
