import ColourPipeline.Proofs.Cache.Gains
import ColourPipeline.Pull.Service

/-! Pulls without a cache, and with one that gives every stage its own gain. -/

namespace ColourPipeline

namespace Network

def through (net : Network) (run : Stage → ℕ → Work Stop Ticket Progress) (s : Stage) (plug : ℕ) :
    Work Stop Ticket Progress := do
  let _ ← Work.check (s.plug plug)
  match net.remote? ⟨s.id, plug⟩ with
  | none => return .unchanged
  | some socket =>
    match net.find? socket.stage with
    | some supplier => run supplier socket.index
    | none => return .unchanged

def serve [Memory] (s : Stage) (socket : ℕ) : Work Stop Ticket Progress :=
  match s.image? socket with
  | some i => Ticket.serve i
  | none => return .unchanged

def applyGain (s : Stage) : Work Stop Ticket Unit :=
  modify fun t => { t with array := (Gain.ofOptions s.options).apply t.array }

def service [Memory] (net : Network) : ℕ → Stage → ℕ → Work Stop Ticket Progress
  | 0, _, _ => return .unchanged
  | depth + 1, s, socket =>
    match s.filter.role with
    | .source => serve s socket
    | .output =>
      if net.isReady s then net.through (net.service depth) s 0 else return .unchanged
    | .transform => do
      let progress ← net.through (net.service depth) s 0
      if progress = .advanced then applyGain s
      return progress
    | .host action =>
      match action with
      | .pull plug => net.through (net.service depth) s plug
      | .serve => serve s socket
      | .answer progress => return progress
      | .refuse text => throw (.error (.codec (.reported text)))

def outlet (s : Stage) : ℕ :=
  match s.filter.role with
  | .host (.pull plug) => plug
  | _ => 0

def supplier? (net : Network) (s : Stage) : Option Stage :=
  (net.remote? ⟨s.id, outlet s⟩).bind fun c => net.find? c.stage

def route (net : Network) : ℕ → Stage → List Stage
  | 0, _ => []
  | depth + 1, s => s :: ((net.supplier? s).map (net.route depth)).getD []

end Network

namespace Pipeline

variable {used : Uses} {p : Pipeline} {s : Stage}

@[simp] lemma setTransform_cache (id : ProviderId) (t : TransformState) :
    (p.setTransform id t).cache = p.cache := rfl

lemma drawFrom_network (slot : SlotId) : (p.drawFrom s slot).network = p.network := by
  unfold Pipeline.drawFrom
  dsimp only
  split
  · rfl
  · split <;> rfl

lemma drawGain_network (s : Stage) (p : Pipeline) : (p.drawGain s).2.network = p.network := by
  rw [Pipeline.drawGain]
  dsimp only
  split <;> exact drawFrom_network _

lemma drawFrom_cache {P : ObjectCache → Prop} (slot : SlotId) (h : P p.cache)
    (hd : ∀ i, P (p.cache.drop i)) (hr : ∀ i, P (p.cache.release i).2) :
    P (p.drawFrom s slot).cache := by
  unfold Pipeline.drawFrom
  dsimp only
  split
  · exact h
  · split
    · exact hd _
    · exact hr _

lemma drawGain_apart {now : Uses} (hk' : Set.InjOn CacheKey.ofText used.texts) (hsub : now ⊆ used)
    (hu : now.Apart used) (h : p.cache.Sound now) (hs : (s.registration, s.options) ∈ used) :
    ((s.registration, s.options) ∈ now → (p.drawGain s).1 = Gain.ofOptions s.options) ∧
      (p.drawGain s).2.network = p.network ∧ (p.drawGain s).2.cache.Sound now := by
  have hl := h.lookup s.gainKey
  have ha := h.key_lookup s.gainKey
  rw [Pipeline.drawGain]
  generalize p.cache.lookup s.gainKey = r at hl ha
  obtain ⟨slot, cache⟩ := r
  dsimp only at hl ha ⊢
  have hq := @drawFrom_cache { p with cache } s
    (fun c => c.Sound now ∧ c.KeyAt slot (CacheKey.ofText s.gainKey)) slot ⟨hl, ha⟩
    (fun i => ⟨hl.drop i, ha.drop i⟩) fun i => ⟨hl.release i, ha.release i⟩
  have hn := @drawFrom_network { p with cache } s slot
  generalize Pipeline.drawFrom { p with cache } s slot = q at hq hn ⊢
  obtain ⟨hq, sl, hsl, hkey⟩ := hq
  rw [ObjectCache.get?_bind_gain?]
  have he : q.cache.entry? slot = sl.entry := by simp [ObjectCache.entry?, hsl]
  rw [he]
  cases hg : sl.entry.bind (·.gain?) with
  | some k => exact ⟨fun hnow => hq.slot hsl k hg _ _ hnow hkey, hn, hq⟩
  | none =>
    refine ⟨fun _ => rfl, hn, ?_⟩
    have hf : ObjectCache.Sound now q.cache.fresh.2 := hq.of_slots rfl fun _ _ h => h
    have hw : ObjectCache.Welcomes now q.cache.fresh.2 slot
        (.ofContent q.cache.fresh.1 {} (.transform (Gain.ofOptions s.options))) := by
      intro slot' hslot' k hk r t ht hkt
      -- Others with the key have the same registration and text, and so by `hu` the same gain.
      obtain rfl : sl = slot' := Option.some.inj (hsl.symm.trans hslot')
      obtain rfl : Gain.ofOptions s.options = k := Option.some.inj hk
      have htext := hk' ⟨_, _, hs, rfl⟩ ⟨r, t, hsub ht, rfl⟩ (hkey.symm.trans hkt)
      obtain ⟨rfl, ho⟩ := gainText_eq_iff.1 htext
      exact hu _ _ _ hs ht ho
    exact hf.set hw

lemma drawGain_spec (hk : Set.InjOn CacheKey.ofText used.texts) (hu : used.Separate)
    (h : p.cache.Sound used) (hs : (s.registration, s.options) ∈ used) :
    (p.drawGain s).1 = Gain.ofOptions s.options ∧ (p.drawGain s).2.network = p.network ∧
      (p.drawGain s).2.cache.Sound used := by
  obtain ⟨hg, hn, hc⟩ := drawGain_apart hk (fun _ hx => hx) hu h hs
  exact ⟨hg hs, hn, hc⟩

end Pipeline

namespace Pull

variable {α β : Type} {used : Uses} {net : Network}

inductive Agrees (used : Uses) (net : Network) :
    EStateM.Result Stop (Pipeline × Ticket) α →
      EStateM.Result Stop Ticket α → Prop
  | ok (a : α) {p : Pipeline} (t : Ticket) (hn : p.network = net) (hc : p.cache.Sound used) :
    Agrees used net (.ok a (p, t)) (.ok a t)
  | error (e : Stop) {p : Pipeline} (t : Ticket) (hn : p.network = net)
    (hc : p.cache.Sound used) : Agrees used net (.error e (p, t)) (.error e t)

def Follows (used : Uses) (net : Network) (m : Pull α) (w : Work Stop Ticket α) : Prop :=
  ∀ (p : Pipeline) (t : Ticket), p.network = net → p.cache.Sound used →
    Agrees used net (m (p, t)) (w t)

lemma follows_pure (a : α) : Follows used net (pure a) (pure a) := fun _ t hn hc => .ok a t hn hc

lemma follows_throw (e : Stop) :
    Follows used net (throw e : Pull α) (throw e) := fun _ t hn hc => .error e t hn hc

lemma Follows.bind {m : Pull α} {w : Work Stop Ticket α} {f : α → Pull β}
    {g : α → Work Stop Ticket β} (h : Follows used net m w) (hf : ∀ a, Follows used net (f a) (g a)) :
    Follows used net (m >>= f) (w >>= g) := by
  intro p t hn hc
  have ha := h p t hn hc
  show Agrees used net (EStateM.bind m f (p, t)) (EStateM.bind w g t)
  simp only [EStateM.bind]
  cases ha' : m (p, t) with
  | ok a s =>
    rw [ha'] at ha
    cases hb : w t with
    | ok b u =>
      rw [hb] at ha
      cases ha with
      | ok a u hn hc => exact hf a _ u hn hc
    | error e u =>
      rw [hb] at ha
      cases ha
  | error e s =>
    rw [ha'] at ha
    cases hb : w t with
    | ok b u =>
      rw [hb] at ha
      cases ha
    | error e u =>
      rw [hb] at ha
      cases ha with
      | error e u hn hc => exact .error e u hn hc

lemma follows_lift (r : Except Stop α) :
    Follows used net (Work.lift r) (Work.lift r) := by
  intro p t hn hc
  cases r with
  | ok a => exact .ok a t hn hc
  | error e => exact .error e t hn hc

lemma follows_onTicket (w : Work Stop Ticket α) : Follows used net (onTicket w) w := by
  intro p t hn hc
  show Agrees used net (Work.on _ _ w (p, t)) (w t)
  rw [Work.on]
  dsimp only
  cases w t with
  | ok a u => exact .ok a u hn hc
  | error e u => exact .error e u hn hc

lemma follows_network {f : Pipeline → Pull α} {w : Work Stop Ticket α}
    (hf : ∀ p, p.network = net → Follows used net (f p) w) :
    Follows used net (pipeline >>= f) w :=
  fun p t hn hc => hf p hn p t hn hc

lemma follows_change {f : Pipeline → Pipeline} {m : Pull α} {w : Work Stop Ticket α}
    (hf : ∀ p, (f p).network = p.network ∧ (f p).cache = p.cache) (hm : Follows used net m w) :
    Follows used net (change f >>= fun _ => m) w := by
  intro p t hn hc
  obtain ⟨hn', hc'⟩ := hf p
  exact hm (f p) t (hn'.trans hn) (hc' ▸ hc)

lemma follows_applyGain (hk : Set.InjOn CacheKey.ofText used.texts) (hu : used.Separate)
    {s : Stage} (hs : (s.registration, s.options) ∈ used) :
    Follows used net (applyGain s) (Network.applyGain s) := by
  intro p t hn hc
  obtain ⟨hg, hn', hc'⟩ := Pipeline.drawGain_spec hk hu hc hs
  have hm : applyGain s (p, t) = .ok () ((p.drawGain s).2.countBatch s t.workspace
      ((p.drawGain s).1.apply t.array).size,
      { t with array := (p.drawGain s).1.apply t.array }) := rfl
  have hw : Network.applyGain s t =
      .ok () { t with array := (Gain.ofOptions s.options).apply t.array } := rfl
  rw [hm, hw, hg]
  exact .ok () _ (hn'.trans hn) hc'

lemma follows_through {run : Stage → ℕ → Option Contact → Pull Progress}
    {direct : Stage → ℕ → Work Stop Ticket Progress} {s : Stage} {plug : ℕ}
    (hr : ∀ socket supplier, net.remote? ⟨s.id, plug⟩ = some socket →
      net.find? socket.stage = some supplier → ∀ i c,
        Follows used net (run supplier i c) (direct supplier i)) :
    Follows used net (through run s plug) (net.through direct s plug) := by
  refine (follows_lift _).bind fun _ => follows_network ?_
  rintro p rfl
  dsimp only
  cases hs : p.network.remote? ⟨s.id, plug⟩ with
  | none => exact follows_pure _
  | some socket =>
    dsimp only
    cases hf : p.network.find? socket.stage with
    | none => exact follows_pure _
    | some supplier => exact hr socket supplier hs hf _ _

lemma follows_serve [Memory] (s : Stage) (socket : ℕ) :
    Follows used net (serve s socket) (Network.serve s socket) := by
  rw [Pull.serve, Network.serve]
  cases s.image? socket with
  | none => exact follows_pure _
  | some i => exact follows_onTicket _

def Covers (used : Uses) (stages : List Stage) : Prop :=
  ∀ s ∈ stages, s.filter.role = .transform → (s.registration, s.options) ∈ used

lemma Covers.supplier {depth : ℕ} {s supplier : Stage} {socket : Contact}
    (h : Covers used (net.route (depth + 1) s))
    (hr : net.remote? ⟨s.id, Network.outlet s⟩ = some socket)
    (hf : net.find? socket.stage = some supplier) : Covers used (net.route depth supplier) := by
  have hs : net.supplier? s = some supplier := by rw [Network.supplier?, hr, Option.bind_some, hf]
  rw [Network.route, hs] at h
  exact fun u hu => h u (List.mem_cons_of_mem s hu)

theorem follows_service [Memory] (hk : Set.InjOn CacheKey.ofText used.texts) (hu : used.Separate)
    (depth : ℕ) (s : Stage) (socket : ℕ) (requestor : Option Contact)
    (hs : Covers used (net.route depth s)) :
    Follows used net (service depth s socket requestor) (net.service depth s socket) := by
  induction depth generalizing s socket requestor with
  | zero => exact follows_pure _
  | succ depth ih =>
    have ht : Follows used net (through (service depth) s (Network.outlet s))
        (net.through (net.service depth) s (Network.outlet s)) :=
      follows_through fun c supplier hr hf i plug => ih supplier i plug (hs.supplier hr hf)
    rw [Pull.service, Network.service]
    cases hrole : s.filter.role with
    | source => exact follows_serve s socket
    | output =>
      have ho : Network.outlet s = 0 := by simp [Network.outlet, hrole]
      refine follows_network ?_
      rintro p rfl
      dsimp only
      split
      · exact ho ▸ ht
      · exact follows_pure _
    | transform =>
      have ho : Network.outlet s = 0 := by simp [Network.outlet, hrole]
      have hmem := hs s List.mem_cons_self hrole
      refine (ho ▸ ht).bind fun progress => ?_
      dsimp only
      split
      · exact (follows_applyGain hk hu hmem).bind fun _ => follows_pure _
      · exact follows_pure _
    | host action =>
      refine follows_change (fun _ => ⟨rfl, rfl⟩) ?_
      cases action with
      | pull plug =>
        have ho : Network.outlet s = plug := by simp [Network.outlet, hrole]
        exact ho ▸ ht
      | serve => exact follows_serve s socket
      | answer progress => exact follows_pure _
      | refuse text => exact follows_throw _

end Pull

end ColourPipeline
