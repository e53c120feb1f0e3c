import ColourPipeline.Proofs.Ticket.Sweep

/-! Histories of a ticket, with sums that have to fit and with sums of any size. -/

namespace ColourPipeline.Ticket

inductive Edit where
  | region (roi : Option Rectangle)
  | rewind
  | pace (n : UInt64)
  | output (output : ImageDescriptor)
  | next

def edit (t : Ticket) : Edit → Option Ticket
  | .region roi => some (t.setRegion roi)
  | .rewind => some t.rewind
  | .pace n => some (t.asked n)
  | .output output => some { t with output }
  | .next =>
    match next t with
    | .error .overflow _ => none
    | r => some (Work.left r)

def run (es : List Edit) (t : Ticket) : Option Ticket := es.foldlM edit t

def history (roi : Option Rectangle) (m : UInt64) (es : List Edit) : Option Ticket :=
  run es (ofRegion roi m)

variable {t u : Ticket} {b : PixelBounds} {i : ℕ} {n : UInt64}

/-- From one ticket to the other the cursor has gone on to where the batch ends, or has been left
where it is since that was the last. -/
inductive Onward (b : PixelBounds) (t u : Ticket) : Prop
  | last (done : u.exhausted = true) (still : u.cursor = t.cursor)
    (past : b.area ≤ batchEnd b t)
  | on (more : u.exhausted = false) (inside : b.contains u.cursor.1 u.cursor.2 = true)
    (place : place b u = batchEnd b t) (ahead : Ticket.place b t < Ticket.place b u)

lemma Steps.onward (h : Steps b t) : Onward b t (t.passed b) := by
  rcases le_or_gt b.area (batchEnd b t) with hle | hlt
  · rw [passed_of_le hle]
    exact .last rfl rfl hle
  · have hplace := place_passed hlt
    refine .on ?_ ?_ hplace ?_
    · rw [passed_of_lt hlt]
      exact h.unspent
    · rw [passed_of_lt hlt]
      exact PixelBounds.contains_pixel hlt
    · rw [hplace]
      exact place_lt_batchEnd h.inside

lemma Steps.edit_of_canPass (h : Steps b t) (hp : CanPass b t) :
    t.edit .next = some (t.passed b) := by
  rw [edit, h.next_of_canPass hp]
  rfl

lemma Steps.edit_of_not_canPass (h : Steps b t) (hp : ¬ CanPass b t) : t.edit .next = none := by
  rw [edit, h.next_of_not_canPass hp]

lemma edit_of_not_steps (h : ∀ b, ¬ Steps b t) : t.edit .next = some t := by
  rcases next_of_not_steps h with ⟨-, hn⟩ | ⟨-, e, hn⟩ <;> rw [edit, hn] <;> rfl

def editExact (t : Ticket) : Edit → Ticket
  | .next =>
    if t.exhausted then t
    else match t.region.bind (·.pixelBounds) with
      | .error _ => t
      | .ok b => if b.contains t.cursor.1 t.cursor.2 then t.passed b else t
  | e => (t.edit e).getD t

def runExact (es : List Edit) (t : Ticket) : Ticket := es.foldl editExact t

lemma Steps.editExact_next (h : Steps b t) : t.editExact .next = t.passed b := by
  rw [editExact, h.unspent, h.bounds]
  simp [h.inside]

lemma editExact_next_of_not_steps (h : ∀ b, ¬ Steps b t) : t.editExact .next = t := by
  rw [editExact]
  split
  · rfl
  · rename_i he
    split
    · rfl
    · rename_i b hb
      exact if_neg fun hin => h b ⟨by simpa using he, hb, hin⟩

lemma edit_next_eq_some_iff :
    t.edit .next = some u ↔ u = t.editExact .next ∧ ∀ b, Steps b t → CanPass b t := by
  by_cases hs : ∃ b, Steps b t
  · obtain ⟨b, hs⟩ := hs
    rw [hs.editExact_next]
    by_cases hp : CanPass b t
    · rw [hs.edit_of_canPass hp, Option.some.injEq]
      exact ⟨fun h => ⟨h.symm, fun c hc => hs.unique hc ▸ hp⟩, fun h => h.1.symm⟩
    · rw [hs.edit_of_not_canPass hp]
      exact iff_of_false nofun fun h => hp (h.2 b hs)
  · have hs := not_exists.1 hs
    rw [edit_of_not_steps hs, editExact_next_of_not_steps hs, Option.some.injEq]
    exact ⟨fun h => ⟨h.symm, fun b hb => absurd hb (hs b)⟩, fun h => h.1.symm⟩

lemma edit_eq_some_iff {e : Edit} : t.edit e = some u ↔
    u = t.editExact e ∧ (e = .next → ∀ b, Steps b t → CanPass b t) := by
  cases e with
  | next => simpa using edit_next_eq_some_iff
  | region roi => simp [edit, editExact, eq_comm]
  | rewind => simp [edit, editExact, eq_comm]
  | pace n => simp [edit, editExact, eq_comm]
  | output output => simp [edit, editExact, eq_comm]

lemma run_concat_eq_some_iff {past : List Edit} {e : Edit} :
    run (past ++ [e]) t = some u ↔ ∃ v, run past t = some v ∧ v.edit e = some u := by
  rw [run, List.foldlM_append]
  simp [run, Option.bind_eq_some_iff]

lemma runExact_concat (past : List Edit) (e : Edit) (t : Ticket) :
    runExact (past ++ [e]) t = (runExact past t).editExact e :=
  List.foldl_concat ..

lemma run_eq_some_iff (es : List Edit) : run es t = some u ↔ u = runExact es t ∧
    ∀ past : List Edit, past ++ [Edit.next] <+: es → ∀ c, Steps c (runExact past t) →
      CanPass c (runExact past t) := by
  induction es using List.reverseRecOn generalizing u with
  | nil =>
    refine ⟨fun h => ⟨(Option.some.inj h).symm, fun past hp => ?_⟩, fun h => h.1 ▸ rfl⟩
    simp at hp
  | append_singleton es e ih =>
    rw [run_concat_eq_some_iff, runExact_concat]
    constructor
    · rintro ⟨v, hv, he⟩
      obtain ⟨rfl, hpast⟩ := ih.1 hv
      obtain ⟨rfl, hlast⟩ := edit_eq_some_iff.1 he
      refine ⟨rfl, fun past hp => ?_⟩
      rcases List.prefix_concat_iff.1 hp with heq | hp
      · obtain ⟨rfl, hnext⟩ := List.append_inj' heq rfl
        exact hlast (List.singleton_inj.1 hnext.symm)
      · exact hpast past hp
    · rintro ⟨rfl, h⟩
      have hpast (past : List Edit) (hp : past ++ [Edit.next] <+: es) :=
        h past (hp.trans (List.prefix_append es [e]))
      refine ⟨_, ih.2 ⟨rfl, hpast⟩, edit_eq_some_iff.2 ⟨rfl, ?_⟩⟩
      rintro rfl
      exact h es (List.prefix_refl _)

section InRange

def InRange (t : Ticket) : Prop := t.cursor.1 < Width.word ∧ t.cursor.2 < Width.word

lemma start_lt (roi : Option Rectangle) :
    (start roi).1 < Width.word ∧ (start roi).2 < Width.word := by
  have hspan (x l : Float) : (Rectangle.span x l).1 < Width.word := by
    have hle : (Rectangle.span x l).1 ≤ Rectangle.limit := by
      unfold Rectangle.span
      dsimp only
      split <;> exact min_le_right _ _
    exact hle.trans_lt (by decide)
  rw [start]
  split
  · rename_i b hb
    obtain ⟨r, -, hr⟩ := Option.bind_eq_some_iff.1 hb
    rw [Rectangle.pixelBounds?] at hr
    split at hr
    · cases hr
    · cases hr
      exact ⟨hspan _ _, hspan _ _⟩
  · decide

lemma InRange.passed (h : InRange t) (hp : CanPass b t) : InRange (t.passed b) := by
  rcases le_or_gt b.area (batchEnd b t) with hle | hlt
  · rw [passed_of_le hle]
    exact h
  · rw [passed_of_lt hlt]
    exact hp.2 hlt

lemma InRange.edit (h : InRange t) {e : Edit} (he : t.edit e = some u) : InRange u := by
  obtain ⟨rfl, hp⟩ := edit_eq_some_iff.1 he
  cases e with
  | region roi => exact start_lt roi
  | rewind => exact start_lt t.roi
  | pace n => exact h
  | output output => exact h
  | next =>
    by_cases hs : ∃ b, Steps b t
    · obtain ⟨b, hs⟩ := hs
      rw [hs.editExact_next]
      exact h.passed (hp rfl b hs)
    · rw [editExact_next_of_not_steps (not_exists.1 hs)]
      exact h

lemma inRange_history {roi : Option Rectangle} {m : UInt64} {es : List Edit}
    (h : history roi m es = some t) : InRange t := by
  induction es using List.reverseRecOn generalizing t with
  | nil =>
    cases h
    exact start_lt roi
  | append_singleton es e ih =>
    obtain ⟨v, hv, he⟩ := run_concat_eq_some_iff.1 h
    exact (ih hv).edit he

lemma Steps.told_place (h : Steps b t) (hr : InRange t) :
    b.Told (place b t % b.width, place b t / b.width) := by
  obtain ⟨hx, hy, hw, -⟩ := PixelBounds.contains_iff.1 h.inside
  have hc : t.cursor.1 - b.x < b.width := by omega
  rw [place, rasterIndex, rowMajor_mod hc, rowMajor_div hc]
  obtain ⟨h₁, h₂⟩ := hr
  constructor <;> dsimp only <;> omega

end InRange

def Counted (b : PixelBounds) (n : UInt64) : Prop :=
  ∀ roi m es t, history roi m es = some t → Steps b t → t.pixelsPerCall = n →
    batchEnd b t < Width.long

lemma exists_history {r : Rectangle} (hr : r.pixelBounds? = some b) {k : ℕ} (hk : k < b.area)
    (ht : b.Told (k % b.width, k / b.width)) (n : UInt64) :
    ∃ m es t, history (some r) m es = some t ∧ Steps b t ∧ t.pixelsPerCall = n ∧
      batchEnd b t = k + pace b n := by
  have hlong := Rectangle.area_lt hr
  have hbounds (m : UInt64) : (ofRegion (some r) m).region.bind (·.pixelBounds) = .ok b := by
    show r.pixelBounds = .ok b
    rw [Rectangle.pixelBounds, hr]
  have hat (m : UInt64) : At b 0 (ofRegion (some r) m) :=
    at_of_fresh ⟨ofRegion (some r) m, .inl rfl⟩ (hbounds m) (Nat.zero_lt_of_lt hk)
  rcases Nat.eq_zero_or_pos k with rfl | hpos
  · exact ⟨n, [], _, rfl, (hat n).steps hk, rfl, (hat n).batchEnd_eq hk⟩
  set m := UInt64.ofNat k with hm
  have hmk : m.toNat = k := by
    rw [hm, UInt64.toNat_ofNat']
    exact Nat.mod_eq_of_lt (hk.trans hlong)
  have hpace : pace b m = k := by
    rw [pace, if_neg fun h0 => ?_, hmk]
    rw [h0] at hmk
    exact absurd hmk.symm hpos.ne'
  have hend : batchEnd b (ofRegion (some r) m) = k := by
    rw [(hat m).batchEnd_eq (Nat.zero_lt_of_lt hk), Nat.zero_add]
    exact hpace
  have hpass : CanPass b (ofRegion (some r) m) := by
    rw [CanPass, hend]
    exact ⟨hk.trans hlong, fun _ => ht⟩
  have hlast : At b k (((ofRegion (some r) m).passed b).asked n) := by
    have hp := (hat m).passed (Nat.zero_lt_of_lt hk)
    rw [Nat.zero_add, show pace b (ofRegion (some r) m).pixelsPerCall = k from hpace] at hp
    exact hp.asked n
  refine ⟨m, [.next, .pace n], _, ?_, hlast.steps hk, rfl, hlast.batchEnd_eq hk⟩
  have hnext := ((hat m).steps (Nat.zero_lt_of_lt hk)).edit_of_canPass hpass
  simp only [history, run, List.foldlM_cons, hnext, List.foldlM_nil]
  rfl

lemma counted_iff {r : Rectangle} (hr : r.pixelBounds? = some b) (n : UInt64) : Counted b n ↔
    ∀ k < b.area, b.Told (k % b.width, k / b.width) → k + pace b n < Width.long := by
  constructor
  · intro h k hk ht
    obtain ⟨m, es, t, hh, hs, hn, hend⟩ := exists_history hr hk ht n
    exact hend ▸ h _ m es t hh hs hn
  · intro h roi m es t hh hs hn
    have hlt := h _ hs.place_lt (hs.told_place (inRange_history hh))
    rwa [batchEnd, hn]

lemma counted_iff_of_fits {r : Rectangle} (hr : r.pixelBounds? = some b) (hb : b.Fits)
    (n : UInt64) : Counted b n ↔ b.area + pace b n ≤ Width.long := by
  have hn := pace_lt (Rectangle.area_lt hr) n
  rw [counted_iff hr]
  constructor
  · intro h
    by_contra hgt
    have hk : b.area - 1 < b.area := by omega
    have hw : 0 < b.width := Nat.pos_of_ne_zero fun h0 => by simp [PixelBounds.area, h0] at hk
    have hlt := h _ hk (hb.told ⟨Nat.mod_lt _ hw, Nat.div_lt_of_lt_mul hk⟩)
    omega
  · intro hle k hk _
    omega

/-- The cursor goes on, and stays one of two 32-bit numbers, unless a sum on its way does not fit:
then the program ends. A history without such sums is as if they had no bound, and for a region
and a number of pixels a call no history has a batch that ends beyond 64 bits if and only if none
does from a place that 32 bits can tell. -/
theorem onward_run (roi : Option Rectangle) (m : UInt64) (es : List Edit) :
    (∀ t, history roi m es = some t ↔ t = runExact es (ofRegion roi m) ∧
      ∀ past : List Edit, past ++ [Edit.next] <+: es →
        ∀ c, Steps c (runExact past (ofRegion roi m)) →
          CanPass c (runExact past (ofRegion roi m))) ∧
    (∀ t, history roi m es = some t → t.cursor.1 < Width.word ∧ t.cursor.2 < Width.word ∧
      ∀ b, Steps b t →
        (CanPass b t ↔ ∃ u, next t = .ok .advanced u ∧ Onward b t u) ∧
        (¬ CanPass b t ↔ next t = .error .overflow t)) ∧
    ∀ b r n, Rectangle.pixelBounds? r = some b →
      (Counted b n ↔
        ∀ k < b.area, b.Told (k % b.width, k / b.width) → k + pace b n < Width.long) ∧
      (b.Fits → (Counted b n ↔ b.area + pace b n ≤ Width.long)) := by
  refine ⟨fun t => run_eq_some_iff es, fun t ht => ?_,
    fun b r n hr => ⟨counted_iff hr n, fun hb => counted_iff_of_fits hr hb n⟩⟩
  obtain ⟨hx, hy⟩ := inRange_history ht
  refine ⟨hx, hy, fun b hs => ⟨⟨fun hp => ?_, fun ⟨u, hu, _⟩ => ?_⟩, ⟨hs.next_of_not_canPass, ?_⟩⟩⟩
  · exact ⟨_, hs.next_of_canPass hp, hs.onward⟩
  · by_contra hp
    cases (hs.next_of_not_canPass hp).symm.trans hu
  · intro hn hp
    cases (hs.next_of_canPass hp).symm.trans hn

def widest : PixelBounds := ⟨0, 0, 0xffffffff, 0xffffffff⟩

def nearlyDone : Ticket := { ofRegion (some ⟨1, 1, 3, 2⟩) 0 with cursor := (2, 2) }

theorem onward_run_uneven :
    (∃ u, next nearlyDone = .ok .advanced u ∧ Onward ⟨1, 1, 3, 2⟩ nearlyDone u) ∧
      Counted widest 0x1ffffffff := by
  constructor
  · have hh : history (some ⟨1, 1, 3, 2⟩) 4 [.next, .pace 0] = some nearlyDone := by
      decide +kernel
    have hs : Steps ⟨1, 1, 3, 2⟩ nearlyDone := ⟨rfl, by decide +kernel, by decide +kernel⟩
    have hp : CanPass ⟨1, 1, 3, 2⟩ nearlyDone :=
      ⟨by decide +kernel, fun hlt => absurd hlt (by decide +kernel)⟩
    exact (((onward_run _ 4 [.next, .pace 0]).2.1 _ hh).2.2 _ hs).1.1 hp
  · have hr : (Rectangle.ofSize 0xffffffff 0xffffffff).pixelBounds? = some widest := by
      decide +kernel
    exact (((onward_run none 0 []).2.2 widest _ 0x1ffffffff hr).2 (.inr (by decide))).2
      (by decide +kernel)

def halfway : Ticket :=
  { ofRegion none 0x8000000000000000 with
    cursor := (0x80000000, 0x80000000)
    output := { width := 0xffffffff, height := 0xffffffff } }

theorem not_onward_widest :
    history none 0x8000000000000000
        [.output { width := 0xffffffff, height := 0xffffffff }, .next] = some halfway ∧
      Steps widest halfway ∧ batchEnd widest halfway = Width.long ∧
      next halfway = .error .overflow halfway := by
  have hs : Steps widest halfway := ⟨rfl, by decide +kernel, by decide +kernel⟩
  have hend : batchEnd widest halfway = Width.long := by decide +kernel
  refine ⟨by decide +kernel, hs, hend, hs.next_of_not_canPass fun hp => ?_⟩
  exact absurd hp.1 (by rw [hend]; exact lt_irrefl _)

end ColourPipeline.Ticket
