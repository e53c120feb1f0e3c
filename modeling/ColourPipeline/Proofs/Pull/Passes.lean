import ColourPipeline.Proofs.Pull.Chain
import ColourPipeline.Proofs.Pull.Tends
import ColourPipeline.Proofs.Ticket.Failure
import ColourPipeline.Proofs.Ticket.Sweep

/-! How many passes a rendering makes, and which sums they take. -/

namespace ColourPipeline

namespace Rendering

inductive Advances (request : Pull Progress) :
    Pipeline × Ticket → List (Pipeline × Ticket) → Pipeline × Ticket → Prop
  | none {x} : Advances request x [] x
  | more {x y xs z} (h : request x = .ok .advanced y) (hs : Advances request y xs z) :
    Advances request x (y :: xs) z

/-- What a rendering gives that has so many batches to deliver: one pass for each, one more to
find that there are no others, and none beyond the limit. -/
structure Delivers (request : Pull Progress) (batches limit : ℕ) (x : Pipeline × Ticket)
    (r : Rendering) : Prop where
  outcome : r.outcome = .ok ⟨min limit (batches + 1),
    if batches < limit then .completed else if limit = 0 then .unchanged else .advanced⟩
  trail : ∃ xs y, Advances request x xs y ∧ xs.length = min limit batches ∧
    r.batches = xs.map (·.2)

variable {request : Pull Progress} {x y z : Pipeline × Ticket} {xs : List (Pipeline × Ticket)}
  {sum : RenderSummary} {seen : List Ticket} {limit batches : ℕ}

lemma Advances.concat (h : Advances request x xs y) (hz : request y = .ok .advanced z) :
    Advances request x (xs ++ [z]) z := by
  induction h with
  | none => exact .more hz .none
  | more h _ ih => exact .more h (ih hz)

lemma go_of_advances (h : Advances request x xs y) (limit : ℕ) (sum : RenderSummary)
    (seen : List Ticket) : go request (xs.length + limit) sum seen x =
      go request limit ⟨sum.passes + xs.length, if xs = [] then sum.last else .advanced⟩
        ((xs.map (·.2)).reverse ++ seen) y := by
  induction h generalizing sum seen with
  | none => simp
  | @more x y xs z h _ ih =>
    rw [List.length_cons, Nat.add_right_comm, go, h]
    dsimp only
    rw [if_pos rfl, ih]
    simp [Nat.add_assoc, Nat.add_comm 1]

lemma advances_or_fails {P : ℕ → Pipeline × Ticket → Prop} (hx : P 0 x) {m : ℕ}
    (hstep : ∀ k y, k < m → P k y → (∃ z, request y = .ok .advanced z ∧ P (k + 1) z) ∨
      ∃ e z, request y = .error e z) :
    (∃ xs y, Advances request x xs y ∧ xs.length = m ∧ P m y) ∨
      ∃ xs y e z, Advances request x xs y ∧ xs.length < m ∧ P xs.length y ∧
        request y = .error e z := by
  induction m with
  | zero => exact .inl ⟨[], x, .none, rfl, hx⟩
  | succ m ih =>
    rcases ih fun k y hk => hstep k y (by omega) with ⟨xs, y, hxs, rfl, hy⟩ | hfail
    · rcases hstep _ y (Nat.lt_succ_self _) hy with ⟨z, hr, hz⟩ | ⟨e, z, hr⟩
      · exact .inl ⟨xs ++ [z], z, hxs.concat hr, by simp, hz⟩
      · exact .inr ⟨xs, y, e, z, hxs, Nat.lt_succ_self _, hy, hr⟩
    · obtain ⟨xs, y, e, z, hxs, hlt, hy, hr⟩ := hfail
      exact .inr ⟨xs, y, e, z, hxs, by omega, hy, hr⟩

lemma outcome_of_fails {e : Stop} (h : Advances request x xs y) (hr : request y = .error e z)
    (hlt : xs.length < limit) : (go request limit sum seen x).outcome = .error e := by
  obtain ⟨rest, rfl⟩ : ∃ rest, limit = xs.length + (rest + 1) := ⟨limit - xs.length - 1, by omega⟩
  rw [go_of_advances h, go, hr]

lemma delivers_go (h : Advances request x xs y)
    (hlen : xs.length = min limit batches)
    (hend : batches < limit → ∃ z, request y = .ok .completed z) :
    Delivers request batches limit x (go request limit ⟨0, .unchanged⟩ [] x) := by
  by_cases hlt : batches < limit
  · obtain ⟨z, hz⟩ := hend hlt
    obtain ⟨rest, hrest⟩ : ∃ rest, limit = xs.length + (rest + 1) := ⟨limit - batches - 1, by omega⟩
    have hgo : go request limit ⟨0, .unchanged⟩ [] x =
        ⟨.ok ⟨batches + 1, .completed⟩, xs.map (·.2), z⟩ := by
      rw [hrest, go_of_advances h, go, hz]
      simp [hlen, Nat.min_eq_right hlt.le]
    rw [hgo]
    refine ⟨?_, xs, y, h, hlen, rfl⟩
    rw [if_pos hlt, Nat.min_eq_right hlt]
  · have hlimit : xs.length = limit := by omega
    have hgo : go request limit ⟨0, .unchanged⟩ [] x =
        ⟨.ok ⟨limit, if limit = 0 then .unchanged else .advanced⟩, xs.map (·.2), y⟩ := by
      have h := go_of_advances h 0 ⟨0, .unchanged⟩ []
      rw [Nat.add_zero, hlimit] at h
      rw [h, go, ← hlimit]
      simp
    rw [hgo]
    refine ⟨?_, xs, y, h, hlen, rfl⟩
    rw [if_neg hlt, Nat.min_eq_left (by omega)]

end Rendering

namespace Ticket

variable {i : Image} {b : PixelBounds} {j : ℕ} {t u : Ticket}

def batches (b : PixelBounds) (n : UInt64) : ℕ := if n = 0 then 1 else b.area ⌈/⌉ n.toNat

lemma le_mul_batches (b : PixelBounds) (n : UInt64) : b.area ≤ pace b n * batches b n := by
  rw [pace, batches]
  split
  · rw [Nat.mul_one]
  · rename_i hn
    have hpos : 0 < n.toNat := Nat.pos_of_ne_zero fun h0 => hn (UInt64.toNat_inj.1 h0)
    exact le_smul_ceilDiv hpos

lemma mul_lt_of_lt_batches (hb : 0 < b.area) {n : UInt64} {k : ℕ} (hk : k < batches b n) :
    pace b n * k < b.area := by
  rw [batches] at hk
  rw [pace]
  split at hk
  · rw [Nat.lt_one_iff.1 hk]
    exact hb
  · rename_i hn
    have hpos : 0 < n.toNat := Nat.pos_of_ne_zero fun h0 => hn (UInt64.toNat_inj.1 h0)
    rw [if_neg hn]
    exact (lt_iff_lt_of_le_iff_le (ceilDiv_le_iff_le_mul hpos)).1 hk

lemma fresh_adopt (h : Fresh t) (i : Image) : Fresh (adopt i t) := by
  obtain ⟨output, ha, -⟩ := adopt_eq i t
  rw [ha]
  obtain ⟨s, rfl | ⟨roi, rfl⟩⟩ := h
  · exact ⟨{ s with output }, .inl rfl⟩
  · exact ⟨{ s with output }, .inr ⟨roi, rfl⟩⟩

lemma At.congr (h : At b j t) (hr : u.region = t.region) (hc : u.cursor = t.cursor)
    (he : u.exhausted = t.exhausted) : At b j u where
  bounds := hr ▸ h.bounds
  here := hc ▸ he ▸ h.here
  through := he ▸ h.through

structure SameTask (t u : Ticket) : Prop where
  roi : u.roi = t.roi
  output : u.output = t.output
  pace : u.pixelsPerCall = t.pixelsPerCall

lemma SameTask.region (h : SameTask t u) : u.region = t.region := by
  rw [Ticket.region, Ticket.region, h.roi, h.output]

def sourceBounds (i : Image) (t : Ticket) : Except PipelineError PixelBounds := do
  let r ← t.region
  let m ← r.inSource t.output.width t.output.height i.width i.height
  m.pixelBounds

def IsPixel (i : Image) (t : Ticket) (x y : ℕ) : Prop :=
  x < i.width ∧ y < i.height ∧ t.pixelsPerCall = 1

/-- In the pass for the batch at a place in raster order, a sum does not fit its width: the one
for the end of the batch, one for the place of the next, or one for a pixel of the image that the
region comes to. -/
inductive Overruns (i : Image) (b : PixelBounds) (t : Ticket) (j : ℕ) : Prop
  | index (h : Width.long ≤ j + pace b t.pixelsPerCall) : Overruns i b t j
  | cursor (h : j + pace b t.pixelsPerCall < b.area)
      (hn : ¬ b.Told ((j + pace b t.pixelsPerCall) % b.width,
        (j + pace b t.pixelsPerCall) / b.width)) : Overruns i b t j
  | source {d : PixelBounds} (h : ¬ IsPixel i t (b.pixel j).1 (b.pixel j).2)
      (hd : sourceBounds i t = .ok d) (hn : ¬ d.Fits) : Overruns i b t j

lemma SameTask.isPixel_iff {x y : ℕ} (h : SameTask t u) :
    IsPixel i u x y ↔ IsPixel i t x y := by
  rw [IsPixel, IsPixel, h.pace]

lemma SameTask.sourceBounds_eq (h : SameTask t u) : sourceBounds i u = sourceBounds i t := by
  rw [sourceBounds, sourceBounds, h.region, h.output]

lemma SameTask.overruns (h : SameTask t u) (ho : Overruns i b u j) : Overruns i b t j := by
  cases ho with
  | index hl => exact .index (h.pace ▸ hl)
  | cursor hl hn => exact .cursor (h.pace ▸ hl) (h.pace ▸ hn)
  | source hp hd hn =>
    exact .source (mt h.isPixel_iff.2 hp) (h.sourceBounds_eq.symm.trans hd) hn

lemma SameTask.symm (h : SameTask t u) : SameTask u t := ⟨h.roi.symm, h.output.symm, h.pace.symm⟩

lemma SameTask.trans {v : Ticket} (h : SameTask t u) (h' : SameTask u v) : SameTask t v :=
  ⟨h'.roi.trans h.roi, h'.output.trans h.output, h'.pace.trans h.pace⟩

lemma sameTask_passed (b : PixelBounds) (t : Ticket) : SameTask t (t.passed b) :=
  ⟨roi_passed t b, output_passed t b, pixelsPerCall_passed t b⟩

lemma sourceBounds_of_mapped {r m : Rectangle} (hr : t.region = .ok r)
    (hm : r.inSource t.output.width t.output.height i.width i.height = .ok m) :
    sourceBounds i t = m.pixelBounds := by
  simp only [sourceBounds, hr, hm, bind, Except.bind]

section Fetching

variable [Memory] {x y : ℕ}

lemma sourceBounds_of_fillRegion_ok {a : Unit} (h : fillRegion i t = .ok a u) :
    ∃ d, sourceBounds i t = .ok d ∧ d.Fits := by
  obtain ⟨r, m, b, d, hr, hm, -, hd, hf, -⟩ := of_fillRegion_ok h
  exact ⟨d, (sourceBounds_of_mapped hr hm).trans hd, hf⟩

lemma sourceBounds_of_fillRegion_overflow (h : fillRegion i t = .error .overflow u) :
    ∃ d, sourceBounds i t = .ok d ∧ ¬ d.Fits := by
  rcases of_fillRegion_error h with ⟨-, he, -⟩ | ⟨-, ⟨_, he, -⟩ | ⟨r, m, a, hr, hm, ha, -⟩⟩
  · cases he
  · cases he
  rcases Image.of_fillWithin_error ha with ⟨_, -, he⟩ | ⟨d, hd, ⟨_, he⟩ | ⟨-, hn, -⟩⟩
  · cases he
  · cases he
  · exact ⟨d, (sourceBounds_of_mapped hr hm).trans hd, hn⟩

lemma not_overflow_of_fillPixel : fillPixel i x y t ≠ .error .overflow u := by
  intro h
  rcases of_fillPixel_error h with ⟨-, he, -⟩ | ⟨_, _, he, -⟩ <;> cases he

lemma fetch_of_isPixel (h : IsPixel i t x y) : fetch i x y t = fillPixel i x y t := if_pos h

lemma fetch_of_not_isPixel (h : ¬ IsPixel i t x y) : fetch i x y t = fillRegion i t := if_neg h

lemma fits_of_fetch_ok (h : fetch i x y t = .ok () u) (hp : ¬ IsPixel i t x y) :
    ∃ d, sourceBounds i t = .ok d ∧ d.Fits := by
  rw [fetch_of_not_isPixel hp] at h
  exact sourceBounds_of_fillRegion_ok h

lemma not_fits_of_fetch_overflow (h : fetch i x y t = .error .overflow u) :
    ¬ IsPixel i t x y ∧ ∃ d, sourceBounds i t = .ok d ∧ ¬ d.Fits := by
  by_cases hp : IsPixel i t x y
  · rw [fetch_of_isPixel hp] at h
    exact absurd h not_overflow_of_fillPixel
  · rw [fetch_of_not_isPixel hp] at h
    exact ⟨hp, sourceBounds_of_fillRegion_overflow h⟩

lemma sameTask_fetch (h : fetch i x y t = .ok () u) : SameTask t u := by
  rw [fetch] at h
  split at h
  · obtain ⟨p, -, rfl⟩ := of_fillPixel_ok h
    exact ⟨rfl, rfl, rfl⟩
  · obtain ⟨r, m, b, d, -, -, -, -, -, rfl⟩ := of_fillRegion_ok h
    exact ⟨rfl, rfl, rfl⟩

end Fetching

lemma At.not_canPass (h : At b j t) (hj : j < b.area) (hn : ¬ CanPass b t) :
    Overruns i b t j := by
  rw [CanPass, h.batchEnd_eq hj, not_and_or, Classical.not_imp, not_lt] at hn
  rcases hn with hl | ⟨hl, ht⟩
  · exact .index hl
  · exact .cursor hl ht

lemma At.not_overruns (h : At b j t) (hj : j < b.area) (hp : CanPass b t)
    (hs : ¬ IsPixel i t (b.pixel j).1 (b.pixel j).2 → ∃ d, sourceBounds i t = .ok d ∧ d.Fits) :
    ¬ Overruns i b t j := by
  rw [CanPass, h.batchEnd_eq hj] at hp
  rintro (hl | ⟨hl, hn⟩ | ⟨hx, hd, hn⟩)
  · exact absurd hp.1 (not_lt.2 hl)
  · exact hn (hp.2 hl)
  · obtain ⟨d, hd', hf⟩ := hs hx
    cases hd.symm.trans hd'
    exact hn hf

lemma serve_of_le [Memory] (h : At b j (adopt i t)) (hj : b.area ≤ j) :
    serve i t = .ok .completed (adopt i t) := by
  rw [Ticket.serve_eq, h.next_of_le hj]

lemma At.serve [Memory] (h : At b j (adopt i t)) (hj : j < b.area) :
    (∃ u, serve i t = .ok .advanced u ∧ SameTask (adopt i t) u ∧
        At b (j + Ticket.pace b (adopt i t).pixelsPerCall) u ∧ ¬ Overruns i b (adopt i t) j) ∨
      ∃ e u, serve i t = .error e u ∧ (e = .overflow → Overruns i b (adopt i t) j) := by
  rw [Ticket.serve_eq]
  by_cases hp : CanPass b (adopt i t)
  · rw [(h.steps hj).next_of_canPass hp]
    dsimp only
    have hsame := sameTask_passed b (adopt i t)
    have hcursor : (adopt i t).cursor = b.pixel j := (h.here hj).2
    rw [hcursor]
    cases hf : fetch i (b.pixel j).1 (b.pixel j).2 (Ticket.passed b (adopt i t)) with
    | ok a u =>
      have htask := sameTask_fetch hf
      obtain ⟨hc, he⟩ := of_fetch_ok hf
      refine .inl ⟨u, rfl, hsame.trans htask, (h.passed hj).congr htask.region hc he, ?_⟩
      refine h.not_overruns hj hp fun hx => ?_
      rw [← hsame.sourceBounds_eq]
      exact fits_of_fetch_ok hf (mt hsame.isPixel_iff.1 hx)
    | error e u =>
      refine .inr ⟨e, u, rfl, fun he => ?_⟩
      subst he
      obtain ⟨hx, d, hd, hn⟩ := not_fits_of_fetch_overflow hf
      exact .source (mt hsame.isPixel_iff.2 hx) (hsame.sourceBounds_eq.symm.trans hd) hn
  · rw [(h.steps hj).next_of_not_canPass hp]
    exact .inr ⟨_, _, rfl, fun _ => h.not_canPass hj hp⟩

end Ticket

namespace Network

inductive Leads (net : Network) : Stage → Stage → Prop
  | here {u} : Leads net u u
  | through {s v u} (hf : s.filter.Forwards) (hv : net.Feeds s v) (h : Leads net v u) :
    Leads net s u

end Network

namespace Pull

variable {net : Network} {s u v : Stage} {x : Pipeline × Ticket} {requestor : Option Contact}
  {calls : List Call} {r : Outcome}

lemma next?_of_feeds (hf : s.filter.Forwards) (hv : net.Feeds s v) (requestor : Option Contact) :
    Call.next? net ⟨s, 0, requestor⟩ = some ⟨v, 0, some ⟨s.id, 0⟩⟩ := by
  rw [next?_of_forwards hf, call?_of_forwards hf hv.1]
  dsimp only
  rw [hv.2]
  rfl

lemma Answers.of_leads [Memory] (h : x.1.network.Leads s u)
    (ha : Answers ⟨s, 0, requestor⟩ x calls r) :
    ∃ req calls' r', Answers ⟨u, 0, req⟩ x calls' r' ∧ Echoes r' r := by
  induction h generalizing requestor calls r with
  | here => exact ⟨_, _, _, ha, .refl r⟩
  | through hf hv _ ih =>
    have hnext := next?_of_feeds hf hv requestor
    cases ha with
    | last h => cases hnext.symm.trans h
    | pulls h hd =>
      cases hnext.symm.trans h
      rw [enter_of_builtin (.inr hf)] at hd
      obtain ⟨req, calls', r', hr, he⟩ := ih hd
      exact ⟨req, calls', r', hr, he.trans (echoes_passed _ _)⟩

def IsEnd (net : Network) (u : Stage) : Prop :=
  u.filter = .imageRoot ∨ u.filter.Forwards ∧ net.remote? ⟨u.id, 0⟩ = none

lemma IsEnd.builtin (h : IsEnd net u) : u.filter.IsBuiltin := h.imp id And.left

lemma IsEnd.next?_eq_none (h : IsEnd net u) (requestor : Option Contact) :
    Call.next? net ⟨u, 0, requestor⟩ = none := by
  rcases h with hf | ⟨hf, hr⟩
  · exact next?_of_root hf
  · rw [next?_of_forwards hf, call?_of_none hr]

end Pull

namespace Conversion

open Pull

variable {c : Conversion} {net : Network} {s u : Stage} {x y z : Pipeline × Ticket} {i : Image}

lemma run_eq [Memory] (ho : c.output = some s.id) (hs : x.1.network.find? s.id = some s) :
    c.run x = service x.1.network.stages.length s 0 none x := by
  simp only [Conversion.run, ho, bind, EStateM.bind, pipeline, get, getThe, MonadStateOf.get,
    EStateM.get, pure, EStateM.pure, hs]
  rfl

lemma network_run [Memory] (c : Conversion) (x : Pipeline × Ticket) :
    (Work.left (c.run x)).1.network = x.1.network :=
  c.keeps_run (P := fun q => q.network = x.1.network) (fun _ h => h) (fun _ _ h => h)
    (fun u _ _ => keeps_applyGain (fun q hq => (Pipeline.drawGain_network u q).trans hq)
      fun _ _ _ hq => hq) x.1 x.2 rfl

lemma ends_run [Memory] (hn : x.1.network.Consistent) (ho : c.output = some s.id)
    (hs : x.1.network.find? s.id = some s) (h : x.1.network.Leads s u)
    (hu : IsEnd x.1.network u) : ∃ req, Ends x ⟨u, 0, req⟩ (c.run x) := by
  obtain ⟨calls, ha⟩ := answers_service (c := ⟨s, 0, none⟩) hn hs
  obtain ⟨req, calls', r, hr, he⟩ := ha.of_leads h
  have hnext := hu.next?_eq_none req
  have hends := ends_of_next? (c := ⟨u, 0, req⟩) hu.builtin hn hnext
  rw [run_eq ho hs]
  cases hr with
  | last _ =>
    rw [enter_of_builtin hu.builtin] at he
    exact ⟨req, hends.echo he⟩
  | pulls h _ => cases hnext.symm.trans h

section Root

variable [Memory]
  (hecho : ∀ y : Pipeline × Ticket, y.1.network = net → Echoes (serve u 0 y) (c.run y))
  (hi : u.image? 0 = some i)

include hi in
lemma serve_eq (y : Pipeline × Ticket) : serve u 0 y = match Ticket.serve i y.2 with
    | .ok progress v => .ok progress (y.1, v)
    | .error e v => .error e (y.1, v) := by
  rw [serve, hi]
  show Work.on _ _ (Ticket.serve i) y = _
  rw [Work.on]
  cases Ticket.serve i y.2 <;> rfl

include hecho hi

lemma run_of_serve {v : Ticket} (hy : y.1.network = net)
    (h : Ticket.serve i y.2 = .ok .completed v) : c.run y = .ok .completed (y.1, v) := by
  have he := hecho y hy
  rw [serve_eq hi, h] at he
  exact he.kept fun h => by cases h

lemma pass {b : PixelBounds} {j : ℕ} {t : Ticket} (hy : y.1.network = net)
    (hs : Ticket.SameTask t (y.2.adopt i)) (h : Ticket.At b j (y.2.adopt i)) (hj : j < b.area) :
    (∃ z, c.run y = .ok .advanced z ∧ z.1.network = net ∧ Ticket.SameTask t (z.2.adopt i) ∧
        Ticket.At b (j + Ticket.pace b t.pixelsPerCall) (z.2.adopt i) ∧
        ¬ Ticket.Overruns i b t j) ∨
      ∃ e z, c.run y = .error e z ∧ (e = .overflow → Ticket.Overruns i b t j) := by
  have he := hecho y hy
  rw [serve_eq hi] at he
  have hnet := network_run c y
  rcases h.serve hj with ⟨v, hv, hsv, hat, hno⟩ | ⟨e, v, hv, hover⟩
  · rw [hv] at he
    obtain ⟨z, hr⟩ := Work.of_outcome_ok (he.outcome : _ = Except.ok Progress.advanced)
    rw [hr] at hnet he
    obtain ⟨array, hz⟩ := he.ticket
    have hz : z.2 = { v with array } := hz
    -- The array is all that the stages below may have changed.
    have ha : z.2.adopt i = { v with array } := by
      rw [Ticket.adopt_of_output, hz]
      rw [hz]
      exact hsv.output
    refine .inl ⟨z, hr, hnet.trans hy, ?_, ?_, fun ho => hno (hs.symm.overruns ho)⟩
    · rw [ha]
      exact (hs.trans hsv).trans ⟨rfl, rfl, rfl⟩
    · rw [ha, ← hs.pace]
      exact hat.congr rfl rfl rfl
  · rw [hv] at he
    obtain ⟨z, hr⟩ := Work.of_outcome_error (he.outcome : _ = Except.error e)
    exact .inr ⟨e, z, hr, fun ho => hs.overruns (hover ho)⟩

lemma delivers_iff {b : PixelBounds} {t : Ticket} {limit : ℕ} (hx : x.1.network = net)
    (ht : t = x.2.adopt i) (hat : Ticket.At b 0 t) (hb : 0 < b.area)
    (hok : ∀ e, (c.render limit x).outcome ≠ .error (.error e)) :
    (Rendering.Delivers c.run (Ticket.batches b t.pixelsPerCall) limit x (c.render limit x) ↔
        ∀ k < min limit (Ticket.batches b t.pixelsPerCall),
          ¬ Ticket.Overruns i b t (Ticket.pace b t.pixelsPerCall * k)) ∧
      (¬ Rendering.Delivers c.run (Ticket.batches b t.pixelsPerCall) limit x
          (c.render limit x) → (c.render limit x).outcome = .error .overflow) := by
  set n := t.pixelsPerCall with hn
  rcases Rendering.advances_or_fails
    (P := fun k y => y.1.network = net ∧ Ticket.SameTask t (y.2.adopt i) ∧
      Ticket.At b (Ticket.pace b n * k) (y.2.adopt i) ∧
      ∀ l < k, ¬ Ticket.Overruns i b t (Ticket.pace b n * l))
    (m := min limit (Ticket.batches b n))
    ⟨hx, ht ▸ ⟨rfl, rfl, rfl⟩, ht ▸ hat, fun l hl => absurd hl (Nat.not_lt_zero l)⟩ (by
      rintro k y hk ⟨hy, hs, hyat, hno⟩
      have hj := Ticket.mul_lt_of_lt_batches hb (lt_of_lt_of_le hk (Nat.min_le_right _ _))
      rcases pass hecho hi hy hs hyat hj with ⟨z, hz, hnet, hsz, hzat, hnok⟩ | ⟨e, z, hz, -⟩
      · refine .inl ⟨z, hz, hnet, hsz, by rwa [Nat.mul_succ], fun l hl => ?_⟩
        rcases Nat.lt_succ_iff_lt_or_eq.1 hl with hl | rfl
        · exact hno l hl
        · exact hnok
      · exact .inr ⟨e, z, hz⟩) with
    ⟨xs, y, hxs, hlen, hy, -, hyat, hno⟩ | ⟨xs, y, e, z, hxs, hlt, ⟨hy, hs, hyat, -⟩, hr⟩
  · have hd : Rendering.Delivers c.run (Ticket.batches b n) limit x (c.render limit x) := by
      refine Rendering.delivers_go hxs hlen fun hlimit => ?_
      rw [Nat.min_eq_right hlimit.le] at hyat
      exact ⟨_, run_of_serve hecho hi hy (Ticket.serve_of_le hyat (Ticket.le_mul_batches b n))⟩
    exact ⟨iff_of_true hd hno, fun hd' => absurd hd hd'⟩
  · have hout : (c.render limit x).outcome = .error e :=
      Rendering.outcome_of_fails hxs hr (lt_of_lt_of_le hlt (Nat.min_le_left _ _))
    have he : e = .overflow := by
      cases e with
      | error e => exact absurd hout (hok e)
      | overflow => rfl
    subst he
    refine ⟨iff_of_false (fun hd => ?_) fun hno => hno _ hlt ?_, fun _ => hout⟩
    · cases hd.outcome.symm.trans hout
    · have hj := Ticket.mul_lt_of_lt_batches hb (lt_of_lt_of_le hlt (Nat.min_le_right _ _))
      rcases pass hecho hi hy hs hyat hj with ⟨z', hz, -⟩ | ⟨e, z', hz, hover⟩
      · cases hz.symm.trans hr
      · cases hz.symm.trans hr
        exact hover rfl

end Root

/-- A rendering over a chain of stages in which no pass answers with an error makes one pass for
each batch and one more, as far as the limit goes, if and only if no sum on the way is too large;
otherwise it ends there, without an answer. Where the chain has nothing to offer, one pass finds
that out and leaves all as it was. -/
theorem render_passes [Memory] (edits : List Edit) (p : Pipeline)
    (hp : p.network = Network.run edits) (c : Conversion) (s u : Stage)
    (ho : c.output = some s.id) (hs : p.network.find? s.id = some s) (h : p.network.Leads s u)
    (limit : ℕ) (t : Ticket) :
    (∀ i b, u.filter = .imageRoot → u.image? 0 = some i → t.Fresh →
      (t.adopt i).region.bind (·.pixelBounds) = .ok b → 0 < b.area →
      (∀ e, (c.render limit (p, t)).outcome ≠ .error (.error e)) →
      (Rendering.Delivers c.run (Ticket.batches b t.pixelsPerCall) limit (p, t)
          (c.render limit (p, t)) ↔
        ∀ k < min limit (Ticket.batches b t.pixelsPerCall),
          ¬ Ticket.Overruns i b (t.adopt i) (Ticket.pace b t.pixelsPerCall * k)) ∧
      (¬ Rendering.Delivers c.run (Ticket.batches b t.pixelsPerCall) limit (p, t)
          (c.render limit (p, t)) → (c.render limit (p, t)).outcome = .error .overflow)) ∧
    (u.filter = .imageRoot ∧ u.image? 0 = none ∨
        u.filter.Forwards ∧ p.network.remote? ⟨u.id, 0⟩ = none →
      c.render limit (p, t) = ⟨.ok ⟨min limit 1, .unchanged⟩, [], (p, t)⟩) := by
  have hn : p.network.Consistent := hp ▸ Network.consistent_run edits
  refine ⟨fun i b hf hi ht hb hpos hok => ?_, fun hu => ?_⟩
  · have hecho (y : Pipeline × Ticket) (hy : y.1.network = p.network) :
        Echoes (serve u 0 y) (c.run y) := by
      obtain ⟨req, hends⟩ :=
        ends_run (hy ▸ hn) ho (hy ▸ hs) (hy ▸ h) (.inl hf : IsEnd y.1.network u)
      exact hends.root hf
    have hpace : (t.adopt i).pixelsPerCall = t.pixelsPerCall := by
      obtain ⟨output, ha, -⟩ := Ticket.adopt_eq i t
      rw [ha]
    rw [← hpace]
    exact delivers_iff hecho hi rfl rfl (Ticket.at_of_fresh (Ticket.fresh_adopt ht i) hb hpos) hpos
      hok
  · have hend : IsEnd p.network u := hu.imp And.left id
    obtain ⟨req, hends⟩ := ends_run (x := (p, t)) hn ho hs h hend
    have hrun : c.run (p, t) = .ok .unchanged (p, t) := by
      rcases hu with ⟨hf, hi⟩ | ⟨hf, -⟩
      · have he := hends.root hf
        rw [serve, hi] at he
        exact he.kept fun h => by cases h
      · refine (hends.loose ?_).2
        rcases hf with hf | hf <;> rw [hf] <;> decide
    cases limit with
    | zero => rfl
    | succ limit =>
      rw [render, Rendering.go, hrun]
      simp

end Conversion

namespace Pipeline

def lone (image : Option Image) : Pipeline := { network := ⟨[imageStage image], [], [], 1⟩ }

section Ample

attribute [local instance] ample

theorem render_passes_counter :
    Rendering.Delivers (Conversion.run { output := some 2 }) 2 3 (amplifier, .ofRegion none 1)
      (Conversion.render { output := some 2 } 3 (amplifier, .ofRegion none 1)) ∧
    Conversion.render { output := some 0 } 3 (lone none, .ofRegion none 1) =
      ⟨.ok ⟨1, .unchanged⟩, [], (lone none, .ofRegion none 1)⟩ := by
  obtain ⟨edits, he⟩ := (reachable_counter ∅ pair doubling).exists_run
  have hleads : amplifier.network.Leads outputStage (imageStage (some pair)) :=
    .through (.inr rfl) ⟨rfl, rfl⟩ (.through (s := gainStage ⟨"icc.transform"⟩ doubling) (.inl rfl)
      ⟨rfl, rfl⟩ .here)
  have hdone : (Conversion.render { output := some 2 } 3 (amplifier, .ofRegion none 1)).outcome =
      .ok ⟨3, .completed⟩ := by
    decide +kernel
  have hbatches : Ticket.batches ⟨0, 0, 2, 1⟩ (Ticket.ofRegion none 1).pixelsPerCall = 2 := by
    decide +kernel
  constructor
  · have h := (Conversion.render_passes edits amplifier he { output := some 2 } outputStage
      (imageStage (some pair)) rfl rfl hleads 3 (.ofRegion none 1)).1 pair ⟨0, 0, 2, 1⟩ rfl rfl
      ⟨.ofRegion none 1, .inl rfl⟩ (by decide +kernel) (by decide) (by simp [hdone])
    rw [hbatches] at h
    by_contra hn
    cases hdone.symm.trans (h.2 hn)
  · exact (Conversion.render_passes [.create (imageStage none).provider] (lone none) rfl
      { output := some 0 } (imageStage none) (imageStage none) rfl rfl .here 3
      (.ofRegion none 1)).2 (.inl ⟨rfl, rfl⟩)

def striding : Ticket :=
  { Ticket.ofRegion none 0x8000000000000000 with
    output := { width := 0xffffffff, height := 0xffffffff } }

theorem not_delivers_striding :
    striding.Fresh ∧
    striding.region.bind (·.pixelBounds) = .ok ⟨0, 0, 0xffffffff, 0xffffffff⟩ ∧
    Ticket.batches ⟨0, 0, 0xffffffff, 0xffffffff⟩ striding.pixelsPerCall = 2 ∧
    (Conversion.render { output := some 0 } 3
      (lone (some (.filled 1 1 Gain.probe)), striding)).outcome = .error .overflow ∧
    ¬ Rendering.Delivers (Conversion.run { output := some 0 }) 2 3
      (lone (some (.filled 1 1 Gain.probe)), striding)
      (Conversion.render { output := some 0 } 3
        (lone (some (.filled 1 1 Gain.probe)), striding)) := by
  have hend : (Conversion.render { output := some 0 } 3
      (lone (some (.filled 1 1 Gain.probe)), striding)).outcome = .error .overflow := by
    decide +kernel
  refine ⟨⟨striding, .inl rfl⟩, by decide +kernel, by decide +kernel, hend, fun h => ?_⟩
  cases h.outcome.symm.trans hend

end Ample

end Pipeline

end ColourPipeline
