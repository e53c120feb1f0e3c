import ColourPipeline.Proofs.Pull.Line

namespace ColourPipeline

namespace Pull

def Idle (m : Pull Progress) : Prop :=
  ∀ s progress v, m s = .ok progress v → progress ≠ .advanced →
    v.2.array = s.2.array ∧ v.2.origin = s.2.origin

lemma idle_pure (progress : Progress) : Idle (pure progress) := by
  intro s progress v h _
  cases h
  exact ⟨rfl, rfl⟩

lemma idle_throw (e : Stop) : Idle (throw e) := by
  intro s progress v h
  cases h

lemma idle_pipeline {f : Pipeline → Pull Progress} (hf : ∀ p, Idle (f p)) :
    Idle (pipeline >>= f) := fun s progress v h hne => hf s.1 s progress v h hne

lemma idle_lift {α : Type} {r : Except Stop α} {f : α → Pull Progress}
    (hf : ∀ a, Idle (f a)) : Idle (Work.lift r >>= f) := by
  intro s progress v h hne
  obtain ⟨a, -, ha⟩ := Work.of_lift_bind_ok h
  exact hf a s progress v ha hne

lemma idle_change {f : Pipeline → Pipeline} {m : Pull Progress} (hm : Idle m) :
    Idle (change f >>= fun _ => m) := fun s progress v h hne => hm (f s.1, s.2) progress v h hne

lemma idle_serve [Memory] (s : Stage) (socket : ℕ) : Idle (serve s socket) := by
  rw [Pull.serve]
  cases s.image? socket with
  | none => exact idle_pure _
  | some i =>
    intro t progress v h hne
    obtain ⟨u, hu, rfl⟩ := Work.of_on_ok h
    obtain ⟨output, ha, -⟩ := Ticket.adopt_eq i t.2
    rcases Ticket.of_serve_ok hu with ⟨-, -, rfl⟩ | ⟨rfl, -⟩
    · rw [ha]
      exact ⟨rfl, rfl⟩
    · exact absurd rfl hne

lemma idle_through {run : Stage → ℕ → Option Contact → Pull Progress}
    (hr : ∀ u i c, Idle (run u i c)) (s : Stage) (plug : ℕ) : Idle (through run s plug) := by
  refine idle_lift fun _ => idle_pipeline fun p => ?_
  dsimp only
  split
  · exact idle_pure _
  · split
    · exact hr _ _ _
    · exact idle_pure _

lemma idle_service [Memory] (depth : ℕ) (s : Stage) (socket : ℕ) (requestor : Option Contact) :
    Idle (service depth s socket requestor) := by
  induction depth generalizing s socket requestor with
  | zero => exact idle_pure _
  | succ depth ih =>
    have ht := idle_through ih s
    rw [Pull.service]
    cases s.filter.role with
    | source => exact idle_serve s socket
    | output =>
      refine idle_pipeline fun p => ?_
      split
      · exact ht 0
      · exact idle_pure _
    | transform =>
      intro t progress v h hne
      obtain ⟨first, w, hw, h⟩ := Work.of_bind_ok h
      by_cases ha : first = .advanced
      · -- An advance below is one here.
        rw [if_pos ha] at h
        obtain ⟨_, x, -, h⟩ := Work.of_bind_ok h
        cases h
        exact absurd ha hne
      · rw [if_neg ha] at h
        cases h
        exact ht 0 t _ _ hw ha
    | host action =>
      refine idle_change ?_
      cases action with
      | pull plug => exact ht plug
      | serve => exact idle_serve s socket
      | answer progress => exact idle_pure _
      | refuse text => exact idle_throw _

lemma idle_run [Memory] (c : Conversion) : Idle c.run := by
  rw [Conversion.run]
  cases c.output with
  | none => exact idle_throw _
  | some id =>
    refine idle_pipeline fun p => ?_
    split
    · exact fun t => idle_service t.1.network.stages.length _ 0 none t
    · exact idle_throw _

end Pull

namespace Rendering

variable {request : Pull Progress} {I : List Ticket → Pipeline × Ticket → Prop}

lemma go_spec (size : Pipeline × Ticket → ℕ)
    (hI : ∀ seen s u, I seen s → request s = .ok .advanced u → I (u.2 :: seen) u ∧ size u < size s)
    (limit : ℕ) (sum : RenderSummary) (seen : List Ticket) (s : Pipeline × Ticket) (h : I seen s)
    (hsum : sum.last ≠ .completed) :
    ∃ v, I (go request limit sum seen s).batches.reverse v ∧
      ((∃ e, (go request limit sum seen s).outcome = .error e) ∨
        (∃ k last, last ≠ .advanced ∧ (go request limit sum seen s).outcome = .ok ⟨k, last⟩ ∧
          request v = .ok last (go request limit sum seen s).state) ∨
        limit ≤ size s ∧ ∃ last, (go request limit sum seen s).outcome = .ok last ∧
          last.last ≠ .completed) := by
  induction limit generalizing sum seen s with
  | zero => exact ⟨s, by simpa [go] using h, .inr (.inr ⟨Nat.zero_le _, sum, rfl, hsum⟩)⟩
  | succ limit ih =>
    rw [go]
    cases hr : request s with
    | error e u => exact ⟨s, by simpa using h, .inl ⟨e, rfl⟩⟩
    | ok last u =>
      dsimp only
      by_cases ha : last = .advanced
      · subst ha
        obtain ⟨hu, hlt⟩ := hI seen s u h hr
        rw [if_pos rfl]
        obtain ⟨v, hv, hend⟩ := ih ⟨sum.passes + 1, .advanced⟩ (u.2 :: seen) u hu (by simp)
        refine ⟨v, hv, hend.imp_right (.imp_right fun ⟨hl, he⟩ => ⟨?_, he⟩)⟩
        omega
      · rw [if_neg ha]
        exact ⟨s, by simpa using h, .inr (.inl ⟨_, last, ha, rfl, hr⟩)⟩

end Rendering

namespace Ticket

variable {i : Image} {b : PixelBounds} {t u : Ticket} {ts : List Stage} {progress : Progress}

/-- Every cell of the array holds what has become of a pixel of the image, the one at its place
counted from the origin: its colours have been multiplied by each transform in turn, and alpha is
as it was. -/
def Shows (i : Image) (ts : List Stage) (t : Ticket) : Prop :=
  ∀ c r, c < t.array.width → r < t.array.height → ∃ p q,
    i.get? (t.origin.1 + c) (t.origin.2 + r) = some p ∧ t.array.get? c r = some q ∧
      q.r = Stage.scaled ts "gain_r" p.r ∧ q.g = Stage.scaled ts "gain_g" p.g ∧
        q.b = Stage.scaled ts "gain_b" p.b ∧ q.a = p.a

def frame (t : Ticket) : PixelBounds := ⟨t.origin.1, t.origin.2, t.array.width, t.array.height⟩

lemma of_deliver_ok [Memory] (h : deliver i ts t = .ok progress u) :
    ∃ v, serve i t = .ok progress v ∧
      (progress = .advanced → u = { v with array := v.array.map (Stage.tint ts) }) := by
  rw [deliver_eq] at h
  cases hs : serve i t with
  | error e v =>
    rw [hs] at h
    cases h
  | ok last v =>
    rw [hs] at h
    cases last <;> cases h
    · exact ⟨v, rfl, fun _ => rfl⟩
    · exact ⟨u, rfl, fun hp => by cases hp⟩
    · exact ⟨u, rfl, fun hp => by cases hp⟩

lemma batch_inside (hb : b.x + b.width ≤ i.width ∧ b.y + b.height ≤ i.height)
    (hc : b.contains t.cursor.1 t.cursor.2 = true) :
    (t.batch b).x + (t.batch b).width ≤ i.width ∧
      (t.batch b).y + (t.batch b).height ≤ i.height := by
  obtain ⟨-, -, hx, hy⟩ := PixelBounds.contains_iff.1 hc
  rw [batch]
  split
  · dsimp only
    omega
  · exact hb

lemma Tours.deliver [Memory] (hi : i.Full) (h : Tours i b t)
    (hd : Ticket.deliver i ts t = .ok .advanced u) :
    Tours i b u ∧ remaining b u < remaining b t ∧ u.Shows i ts ∧
      ∀ x y, Reached b u x y → Reached b t x y ∨ u.frame.contains x y = true := by
  obtain ⟨v, hv, hu⟩ := of_deliver_ok hd
  obtain rfl := hu rfl
  rcases h.serve hv with ⟨hc, -⟩ | ⟨-, he, hc, output, hw, hh, rfl⟩
  · cases hc
  obtain ⟨hright, hbottom⟩ := batch_inside h.inside hc
  refine ⟨h.congr (roi_passed t b) (.inr ⟨hw, hh⟩), remaining_passed he hc, ?_, fun x y hr => ?_⟩
  · intro c r hcw hrh
    have hcw : c < (t.batch b).width := hcw
    have hrh : r < (t.batch b).height := hrh
    obtain ⟨p, hp⟩ := @Image.Full.exists_get? i ((t.batch b).x + c) ((t.batch b).y + r) hi
      (by omega) (by omega)
    refine ⟨p, _, hp, PixelArray.get?_map (Image.get?_crop hcw hrh hp), ?_⟩
    rw [Stage.tint_eq]
    exact ⟨rfl, rfl, rfl, rfl⟩
  · exact reached_passed he hc hr

end Ticket

namespace Conversion

open Ticket (Tours Reached remaining place)

variable {used : Uses} {p : Pipeline} {c : Conversion} {i : Image} {out root : Stage}
  {ts : List Stage} {b : PixelBounds}

structure Touring (used : Uses) (net : Network) (i : Image) (ts : List Stage) (b : PixelBounds)
    (seen : List Ticket) (s : Pipeline × Ticket) : Prop where
  network : s.1.network = net
  sound : s.1.cache.Sound used.finite
  tours : Tours i b s.2
  shows : ∀ u ∈ seen, u.Shows i ts
  reached : ∀ x y, Reached b s.2 x y → ∃ u ∈ seen, u.frame.contains x y = true

lemma Touring.deliver [Memory] (hk : Set.InjOn CacheKey.ofText used.texts) {net : Network}
    (hfin : net.Finitely used c) (hc : net.request c = Ticket.deliver i ts) {seen : List Ticket}
    {s u : Pipeline × Ticket} {progress : Progress} (h : Touring used net i ts b seen s)
    (hr : c.run s = .ok progress u) : Ticket.deliver i ts s.2 = .ok progress u.2 ∧
      u.1.network = net ∧ u.1.cache.Sound used.finite := by
  have ha := follows_run_finite hk hfin s.1 s.2 h.network h.sound
  rw [hc, show c.run (s.1, s.2) = c.run s from rfl, hr] at ha
  cases hd : Ticket.deliver i ts s.2 with
  | error e v =>
    rw [hd] at ha
    cases ha
  | ok last v =>
    rw [hd] at ha
    cases ha with
    | ok _ _ hn hsound => exact ⟨rfl, hn, hsound⟩

lemma Touring.advance [Memory] (hk : Set.InjOn CacheKey.ofText used.texts) {net : Network}
    (hi : i.Full) (hfin : net.Finitely used c) (hc : net.request c = Ticket.deliver i ts)
    {seen : List Ticket} {s u : Pipeline × Ticket} (h : Touring used net i ts b seen s)
    (hr : c.run s = .ok .advanced u) :
    Touring used net i ts b (u.2 :: seen) u ∧ remaining b u.2 < remaining b s.2 := by
  obtain ⟨hd, hn, hsound⟩ := h.deliver hk hfin hc hr
  obtain ⟨ht, hlt, hshow, hreach⟩ := h.tours.deliver hi hd
  refine ⟨⟨hn, hsound, ht, ?_, fun x y hxy => ?_⟩, hlt⟩
  · intro w hw
    rcases List.mem_cons.1 hw with rfl | hw
    · exact hshow
    · exact h.shows w hw
  · rcases hreach x y hxy with hxy | hxy
    · obtain ⟨w, hw, hin⟩ := h.reached x y hxy
      exact ⟨w, List.mem_cons_of_mem _ hw, hin⟩
    · exact ⟨_, List.mem_cons_self, hxy⟩

lemma Touring.stop [Memory] (hk : Set.InjOn CacheKey.ofText used.texts) {net : Network}
    (hfin : net.Finitely used c) (hc : net.request c = Ticket.deliver i ts) {seen : List Ticket}
    {s u : Pipeline × Ticket} (h : Touring used net i ts b seen s) {last : Progress}
    (hr : c.run s = .ok last u) (hl : last ≠ .advanced) :
    last = .completed ∧ s.2.exhausted = true := by
  obtain ⟨hd, -⟩ := h.deliver hk hfin hc hr
  obtain ⟨w, hw, -⟩ := Ticket.of_deliver_ok hd
  rcases h.tours.serve hw with hdone | ⟨ha, -⟩
  · exact hdone
  · exact absurd ha hl

lemma touring_start {net : Network} (hn : p.network = net) (hs : p.cache.Sound used.finite)
    {t : Ticket} (ht : Tours i b t) (hz : place b t = 0)
    (he : t.exhausted = false) : Touring used net i ts b [] (p, t) where
  network := hn
  sound := hs
  tours := ht
  shows u hu := by cases hu
  reached x y h := by
    rcases h.2 with h | h
    · rw [he] at h
      cases h
    · rw [hz] at h
      exact absurd h (Nat.not_lt_zero _)

lemma place_start {t : Ticket} (ht : Tours i b t) (hc : t.cursor = Ticket.start t.roi) :
    place b t = 0 := by
  rw [place, hc]
  cases hr : t.roi with
  | none => simp [Ticket.start, Ticket.rasterIndex]
  | some r =>
    have hb := ht.bounds
    rw [hr, Option.getD_some] at hb
    simp [Ticket.start, Ticket.rasterIndex, hb]

/-- Rendering along a line with a new ticket for a region within the image, some number of pixels
a call: every batch shows the image through all gains in turn, and with alpha as it was; with the
region at its end, all of it has been shown, and it does come to an end, or fails, within as many
requests as there are pixels and one. A request that does not advance leaves array and origin. -/
theorem render_line [Memory] (used : Uses)
    (hk : Set.InjOn (fun text => Digest.sha256 (Bytes.ofText text))
      {text ∈ used.texts | CacheKey.inlineLimit ≤ text.utf8ByteSize})
    (hp : Pipeline.Reachable used p) (hline : p.network.Line i out ts root)
    (hc : c.output = some out.id)
    (hts : ∀ s ∈ ts, (s.registration, s.options) ∈ used ∧ s.options.IsFinite) (hi : i.Full)
    (roi : Option Rectangle) (n : UInt64) (output : ImageDescriptor) (workspace : ℤ)
    (ht : Tours i b { Ticket.ofRegion roi n with output, workspace }) (limit : ℕ) :
    let r := c.render limit (p, { Ticket.ofRegion roi n with output, workspace })
    (∀ u ∈ r.batches, u.Shows i ts) ∧
      (∀ k, r.outcome = .ok ⟨k, .completed⟩ →
        ∀ x y, b.contains x y = true → ∃ u ∈ r.batches, u.frame.contains x y = true) ∧
      (b.area < limit → (∃ e, r.outcome = .error e) ∨ ∃ k, r.outcome = .ok ⟨k, .completed⟩) ∧
      ∀ s progress v, c.run s = .ok progress v → progress ≠ .advanced →
        v.2.array = s.2.array ∧ v.2.origin = s.2.origin := by
  have hk := CacheKey.ofText_injOn hk
  have hn := hp.consistent
  have hfin := hline.finitely hn hc hts
  have hreq := hline.request hn.acyclic hc
  have hz := place_start ht rfl
  obtain ⟨v, hv, hend⟩ := Rendering.go_spec (fun s => remaining b s.2)
    (fun seen s u h hr => Touring.advance hk hi hfin hreq h hr) limit ⟨0, .unchanged⟩ []
    (p, { Ticket.ofRegion roi n with output, workspace })
    (touring_start rfl (hp.sound_finite hk) ht hz rfl) (by simp)
  have hb : remaining b { Ticket.ofRegion roi n with output, workspace } ≤ b.area :=
    Nat.sub_le _ _
  refine ⟨fun u hu => hv.shows u (List.mem_reverse.2 hu), ?_, ?_,
    Pull.idle_run c⟩
  · intro k hk' x y hxy
    rcases hend with ⟨e, he⟩ | ⟨k', last, hl, ho, hr⟩ | ⟨-, last, ho, hl⟩
    · cases he.symm.trans hk'
    · obtain ⟨u, hu, hin⟩ := hv.reached x y ⟨hxy, .inl (hv.stop hk hfin hreq hr hl).2⟩
      exact ⟨u, List.mem_reverse.1 hu, hin⟩
    · cases ho.symm.trans hk'
      exact absurd rfl hl
  · intro hlt
    rcases hend with he | ⟨k, last, hl, ho, hr⟩ | ⟨hle, -⟩
    · exact .inl he
    · obtain ⟨rfl, -⟩ := hv.stop hk hfin hreq hr hl
      exact .inr ⟨k, ho⟩
    · exact absurd (hle.trans hb) (not_le.2 hlt)

end Conversion

namespace Pipeline

def unlike : Image := ⟨2, 1, {}, #[⟨1, 2, 3, 0.5⟩, ⟨5, 6, 7, 0⟩]⟩

def toned : OptionSet := ⟨[{ registration := "icc.transform/gain_g", value := .double 2 }]⟩

lemma tours_unlike : Ticket.Tours unlike ⟨0, 0, 2, 1⟩ (.ofRegion none 1) where
  sized := .inl rfl
  bounds := by decide +kernel
  scaled := by decide +kernel
  inside := by decide

section Ample

attribute [local instance] ample

theorem render_line_counter :
    let r := Conversion.render { output := some 2 } 3
      ({ network := counter (imageStage (some unlike)) toned }, .ofRegion none 1)
    r.outcome = .ok ⟨3, .completed⟩ ∧
      (r.batches.map fun u => (u.origin, u.array.pixels)) =
        [((0, 0), #[⟨1, 4, 3, 0.5⟩]), ((1, 0), #[⟨5, 12, 7, 0⟩])] ∧
      (∀ u ∈ r.batches, u.Shows unlike [gainStage ⟨"icc.transform"⟩ toned]) ∧
      ∀ x y, (PixelBounds.mk 0 0 2 1).contains x y = true →
        ∃ u ∈ r.batches, u.frame.contains x y = true := by
  have hrun : (fun r : Rendering => (r.outcome, r.batches.map fun u => (u.origin, u.array.pixels)))
      (Conversion.render { output := some 2 } 3
        ({ network := counter (imageStage (some unlike)) toned }, .ofRegion none 1)) =
      (.ok ⟨3, .completed⟩, [((0, 0), #[⟨1, 4, 3, 0.5⟩]), ((1, 0), #[⟨5, 12, 7, 0⟩])]) := by
    decide +kernel
  obtain ⟨hdone, hshown⟩ := Prod.mk.inj hrun
  have h := Conversion.render_line (c := { output := some 2 }) _
    (Uses.injOn_singleton _ _ _ _) (reachable_counter _ unlike toned) (line_counter unlike toned)
    rfl (uses_counter (by decide)) ⟨rfl⟩ none 1 {} 0 tours_unlike 3
  exact ⟨hdone, hshown, h.1, h.2.1 3 hdone⟩

end Ample

end Pipeline

end ColourPipeline
