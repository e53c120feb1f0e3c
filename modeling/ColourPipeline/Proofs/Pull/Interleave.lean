import ColourPipeline.Proofs.Pull.Line

namespace ColourPipeline

variable {ι : Type} [DecidableEq ι] {used : Uses}

def Pipeline.calls [Memory] (c : ι → Conversion) :
    List ι → Pipeline → (ι → Ticket) → List (ι × EStateM.Result Stop Ticket Progress)
  | [], _, _ => []
  | i :: is, p, t =>
    let r := (c i).run (p, t i)
    (i, outcome r) :: calls c is (Work.left r).1 (Function.update t i (Work.left r).2)

namespace Network

variable {net : Network} {c : ι → Conversion}

def calls [Memory] (net : Network) (c : ι → Conversion) :
    List ι → (ι → Ticket) → List (ι × EStateM.Result Stop Ticket Progress)
  | [], _ => []
  | i :: is, t =>
    let r := net.request (c i) (t i)
    (i, r) :: net.calls c is (Function.update t i (Work.left r))

lemma calls_cons [Memory] (i : ι) (is : List ι) (t : ι → Ticket) :
    net.calls c (i :: is) t = (i, net.request (c i) (t i)) ::
      net.calls c is (Function.update t i (Work.left (net.request (c i) (t i)))) := rfl

lemma calls_congr [Memory] {schedule : List ι} {t u : ι → Ticket} (h : ∀ i ∈ schedule, t i = u i) :
    net.calls c schedule t = net.calls c schedule u := by
  induction schedule generalizing t u with
  | nil => rfl
  | cons i is ih =>
    rw [calls_cons, calls_cons, h i List.mem_cons_self]
    congr 1
    apply ih
    intro j hj
    by_cases hji : j = i
    · subst hji
      simp
    · simp [hji, h j (List.mem_cons_of_mem i hj)]

lemma filter_calls [Memory] (schedule : List ι) (t : ι → Ticket) (i : ι) :
    (net.calls c schedule t).filter (·.1 = i) = net.calls c (schedule.filter (· = i)) t := by
  induction schedule generalizing t with
  | nil => rfl
  | cons j js ih =>
    rw [calls_cons]
    by_cases hji : j = i
    · subst hji
      rw [List.filter_cons_of_pos (by simp), List.filter_cons_of_pos (by simp), calls_cons, ih]
    · rw [List.filter_cons_of_neg (by simpa using hji),
        List.filter_cons_of_neg (by simpa using hji), ih]
      apply calls_congr
      intro k hk
      have hki : k = i := by simpa using (List.mem_filter.1 hk).2
      simp [hki, Ne.symm hji]

end Network

namespace Pipeline

variable {p : Pipeline} {c : ι → Conversion}

lemma calls_cons [Memory] (i : ι) (is : List ι) (t : ι → Ticket) :
    p.calls c (i :: is) t = (i, outcome ((c i).run (p, t i))) ::
      (Work.left ((c i).run (p, t i))).1.calls c is
        (Function.update t i (Work.left ((c i).run (p, t i))).2) := rfl

lemma calls_eq [Memory] (hk : Set.InjOn CacheKey.ofText used.texts)
    (hc : ∀ i, p.network.Finitely used (c i)) (hp : p.cache.Sound used.finite)
    (schedule : List ι) (t : ι → Ticket) :
    p.calls c schedule t = p.network.calls c schedule t := by
  induction schedule generalizing p t with
  | nil => rfl
  | cons i is ih =>
    have ha := Conversion.follows_run_finite hk (hc i) p (t i) rfl hp
    rw [calls_cons, Network.calls_cons]
    generalize (c i).run (p, t i) = r at ha ⊢
    generalize p.network.request (c i) (t i) = w at ha ⊢
    -- The pipeline the call leaves has the same graph and a sound cache again.
    have hl : (Work.left r).1.network = p.network ∧ (Work.left r).1.cache.Sound used.finite ∧
        (Work.left r).2 = Work.left w ∧ outcome r = w := by
      cases ha with
      | ok a t hn hs => exact ⟨hn, hs, rfl, rfl⟩
      | error e t hn hs => exact ⟨hn, hs, rfl, rfl⟩
    obtain ⟨hn, hs, ht, ho⟩ := hl
    rw [ho, ht, ih (by rwa [hn]) hs, hn]

/-- Calls of several tickets in any order, on one pipeline with any past, come for each of them
to what its own calls alone come to with an empty cache. -/
theorem filter_calls_eq [Memory] (used : Uses)
    (hk : Set.InjOn (fun text => Digest.sha256 (Bytes.ofText text))
      {text ∈ used.texts | CacheKey.inlineLimit ≤ text.utf8ByteSize})
    (hp : Reachable used p) (hc : ∀ i, p.network.Finitely used (c i)) (schedule : List ι)
    (t : ι → Ticket) (i : ι) (transforms : Table ProviderId TransformState) (log : List Event) :
    (p.calls c schedule t).filter (·.1 = i) =
      ({ network := p.network, transforms, log } : Pipeline).calls c
        (schedule.filter (· = i)) t := by
  have hk := CacheKey.ofText_injOn hk
  have he : (ObjectCache.mk [] {} 0).Sound used.finite := ObjectCache.sound_empty
  rw [calls_eq hk hc (hp.sound_finite hk), Network.filter_calls]
  exact (@calls_eq ι _ used { network := p.network, transforms, log } c _ hk hc he _ t).symm

section Ample

attribute [local instance] ample

theorem filter_calls_eq_counter :
    let p : Pipeline := { network := counter (imageStage (some pair)) doubling }
    let c : Bool → Conversion := fun _ => { output := some 2 }
    let t : Bool → Ticket := fun i => .ofRegion none (if i then 1 else 0)
    (∀ i, p.network.Finitely {(⟨"icc.transform"⟩, doubling)} (c i)) ∧
      ∀ i, (p.calls c [true, false, true] t).filter (·.1 = i) =
        ({ network := p.network } : Pipeline).calls c ([true, false, true].filter (· = i)) t := by
  have hp := reachable_counter {(⟨"icc.transform"⟩, doubling)} pair doubling
  have hc := (line_counter pair doubling).finitely (c := { output := some 2 }) hp.consistent rfl
    (uses_counter (by decide))
  exact ⟨fun _ => hc, fun i =>
    filter_calls_eq _ (Uses.injOn_singleton _ _ _ _) hp (fun _ => hc) _ _ i [] []⟩

end Ample

end Pipeline

end ColourPipeline
