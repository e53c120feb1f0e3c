import ColourPipeline.Proofs.Graph.Run
import ColourPipeline.Proofs.Pull.Keeps

/-! Pipelines after any edits, requests and dealings of others with the cache. -/

namespace ColourPipeline

inductive Request where
  | socket (c : Contact)
  | plug (c : Contact)

namespace Network

def passes (net : Network) : Request → List Stage
  | .socket c => ((net.find? c.stage).map (net.route net.stages.length)).getD []
  | .plug c =>
    (((net.remote? c).bind fun d => net.find? d.stage).map (net.route net.stages.length)).getD []

def answer [Memory] (net : Network) : Request → Work Stop Ticket Progress
  | .socket c =>
    match net.find? c.stage with
    | some s => net.service net.stages.length s c.index
    | none => return .unchanged
  | .plug c =>
    match net.find? c.stage with
    | some s => net.through (net.service net.stages.length) s c.index
    | none => return .unchanged

end Network

namespace Pull

def answer [Memory] : Request → Pull Progress
  | .socket c => do
    match (← pipeline).network.find? c.stage with
    | some s => run s c.index
    | none => return .unchanged
  | .plug c => do
    match (← pipeline).network.find? c.stage with
    | some s => pull s c.index
    | none => return .unchanged

lemma follows_depth {α : Type} {used : Uses} {net : Network} {f : ℕ → Pull α}
    {w : Work Stop Ticket α} (hf : Follows used net (f net.stages.length) w) :
    Follows used net (depth >>= f) w := by
  intro p t hn hc
  have h := hf p t hn hc
  rw [← hn] at h ⊢
  exact h

theorem follows_answer [Memory] {used : Uses} {net : Network}
    (hk : Set.InjOn CacheKey.ofText used.texts) (hu : used.Separate) (r : Request) (hr : Covers used (net.passes r)) :
    Follows used net (answer r) (net.answer r) := by
  cases r with
  | socket c =>
    refine follows_network ?_
    rintro p rfl
    simp only [Network.answer]
    unfold Network.passes at hr
    dsimp only at hr ⊢
    cases hs : p.network.find? c.stage with
    | none => exact follows_pure _
    | some s =>
      rw [hs] at hr
      exact follows_depth (follows_service hk hu _ s c.index none hr)
  | plug c =>
    refine follows_network ?_
    rintro p rfl
    rw [Network.answer]
    unfold Network.passes at hr
    dsimp only at hr ⊢
    cases hs : p.network.find? c.stage with
    | none => exact follows_pure _
    | some s =>
      refine follows_depth (follows_through fun socket supplier hrem hsup i plug => ?_)
      have hid : s.id = c.stage := Network.id_of_find? hs
      rw [hid] at hrem
      rw [hrem, Option.bind_some, hsup] at hr
      exact follows_service hk hu _ supplier i plug hr

end Pull

/-- What happens to a pipeline: edits, requests of tickets with what memory there is at the time,
and what others do with the cache. -/
inductive Act where
  | edit (e : Edit)
  | request (m : Memory) (r : Request) (t : Ticket)
  | lookup (text : String)
  | holdSlot (id : SlotId)
  | dropSlot (id : SlotId)
  | releaseSlot (id : SlotId)
  | fill (id : SlotId) (e : Entity)
  | clear

namespace Pipeline

def orStay (p : Pipeline) : Except PipelineError Pipeline → Pipeline
  | .ok q => q
  | .error _ => p

def edit (p : Pipeline) : Edit → Pipeline
  | .create q => p.orStay ((p.create q).map (·.2))
  | .hold id => p.hold id
  | .drop id => p.drop id
  | .connect plug socket => p.orStay (p.connect plug socket)
  | .disconnect plug => p.disconnect plug
  | .setOptions id o => p.setOptions id o
  | .setImage socket i => p.orStay (p.setImage socket i)
  | .convert input output => (p.convert input output).2
  | .setInput c id => (p.setInput c id).2
  | .setOutput c id => (p.setOutput c id).2
  | .release c => (p.release c).2

def afterRequest : EStateM.Result Stop (Pipeline × Ticket) Progress → Pipeline
  | .ok _ s => s.1
  | .error _ s => s.1

def onCache (p : Pipeline) (f : ObjectCache → ObjectCache) : Pipeline :=
  { p with cache := f p.cache }

def act (p : Pipeline) : Act → Pipeline
  | .edit e => p.edit e
  | .request _ r t => afterRequest (Pull.answer r (p, t))
  | .lookup text => p.onCache fun c => (c.lookup text).2
  | .holdSlot id => p.onCache fun c => c.hold id
  | .dropSlot id => p.onCache fun c => c.drop id
  | .releaseSlot id => p.onCache fun c => (c.release id).2
  | .fill id e => p.onCache fun c => c.set id e
  | .clear => p.onCache fun c => c.clear

def Allows (used : Uses) (p : Pipeline) : Act → Prop
  | .request _ r _ => Pull.Covers used (p.network.passes r)
  | .fill id e => ∀ slot, p.cache.slots[id]? = some slot → e.gain?.isSome →
      ∀ r s, (r, s) ∈ used → slot.key ≠ CacheKey.ofText (gainText r s)
  | _ => True

inductive Reachable (used : Uses) : Pipeline → Prop
  | empty : Reachable used {}
  | act {p : Pipeline} {a : Act} : Reachable used p → Allows used p a → Reachable used (p.act a)

variable {used : Uses} {p : Pipeline}

section Cache

variable {P : ObjectCache → Prop} (hd : ∀ c id, P c → P (c.drop id))

include hd

lemma dropSlot_cache (h : P p.cache) (slot : Option SlotId) : P (p.dropSlot slot).cache := by
  cases slot with
  | none => exact h
  | some slot => exact hd _ slot h

lemma retire_cache (h : P p.cache) (s : Stage) : P (p.retire s).cache := by
  rw [Pipeline.retire]
  split
  · exact h
  · exact @dropSlot_cache (p.setTransform s.provider.id _) P hd h _
  · exact h
  · exact h

lemma settle_cache (h : P p.cache) (r : List Stage × Network) : P (p.settle r).cache := by
  rw [Pipeline.settle]
  have hr : P ({ p with network := r.2 } : Pipeline).cache := h
  generalize ({ p with network := r.2 } : Pipeline) = q at hr ⊢
  induction r.1 generalizing q with
  | nil => exact hr
  | cons s ss ih => exact ih _ (retire_cache hd hr s)

lemma edit_cache (h : P p.cache) (e : Edit) : P (p.edit e).cache := by
  cases e with
  | create q =>
    show P (p.orStay ((p.create q).map (·.2))).cache
    rw [Pipeline.create]
    cases q.filter with
    | ok f => exact h
    | error e => exact h
  | hold id => exact h
  | drop id => exact settle_cache hd h _
  | connect plug socket =>
    show P (p.orStay (p.connect plug socket)).cache
    rw [Pipeline.connect]
    cases Network.connect plug socket p.network with
    | ok freed net => exact settle_cache hd h _
    | error e net => exact h
  | disconnect plug => exact settle_cache hd h _
  | setOptions id o => exact h
  | setImage socket i =>
    show P (p.orStay (p.setImage socket i)).cache
    rw [Pipeline.setImage]
    cases p.network.socket socket with
    | ok c => exact h
    | error e => exact h
  | convert input output => exact h
  | setInput c id => exact settle_cache hd h _
  | setOutput c id => exact settle_cache hd h _
  | release c => exact settle_cache hd h _

end Cache

lemma keeps_applyGain_of_mem {now : Uses} {net : Network}
    (hk : Set.InjOn CacheKey.ofText used.texts) (hsub : now ⊆ used) (hu : now.Apart used)
    {s : Stage} (hs : (s.registration, s.options) ∈ used) :
    Pull.Keeps (fun p => p.network = net ∧ p.cache.Sound now) (Pull.applyGain s) := by
  refine Pull.keeps_applyGain (fun p hp => ?_) fun _ _ _ hp => hp
  obtain ⟨-, hn, hc⟩ := drawGain_apart hk hsub hu hp.2 hs
  exact ⟨hn.trans hp.1, hc⟩

lemma keeps_answer [Memory] {P : Pipeline → Prop} {net : Network}
    (hnet : ∀ p, P p → p.network = net) (hlog : ∀ p e, P p → P (p.report e)) (r : Request)
    (hr : ∀ u ∈ net.passes r, u.filter.role = .transform → Pull.Keeps P (Pull.applyGain u)) :
    Pull.Keeps P (Pull.answer r) := by
  cases r with
  | socket c =>
    refine Pull.keeps_pipeline fun p hp => ?_
    obtain rfl := hnet p hp
    unfold Network.passes at hr
    dsimp only at hr ⊢
    cases hs : p.network.find? c.stage with
    | none => exact Pull.keeps_pure _
    | some s =>
      rw [hs] at hr
      exact Pull.keeps_depth hnet <| Pull.keeps_service hnet hlog _ s c.index none hr
  | plug c =>
    refine Pull.keeps_pipeline fun p hp => ?_
    obtain rfl := hnet p hp
    unfold Network.passes at hr
    dsimp only at hr ⊢
    cases hs : p.network.find? c.stage with
    | none => exact Pull.keeps_pure _
    | some s =>
      refine Pull.keeps_depth hnet <| Pull.keeps_through hnet
        fun socket supplier hrem hsup i plug => ?_
      have hid : s.id = c.stage := Network.id_of_find? hs
      rw [hid] at hrem
      rw [hrem, Option.bind_some, hsup] at hr
      exact Pull.keeps_service hnet hlog _ supplier i plug hr

lemma sound_act {now : Uses} (hk : Set.InjOn CacheKey.ofText used.texts) (hsub : now ⊆ used)
    (hu : now.Apart used) (h : p.cache.Sound now) {a : Act} (ha : Allows used p a) :
    (p.act a).cache.Sound now := by
  cases a with
  | edit e => exact edit_cache (fun _ id hc => hc.drop id) h e
  | request _ r t =>
    have hm := (keeps_answer (P := fun q => q.network = p.network ∧ q.cache.Sound now)
      (fun _ hq => hq.1) (fun _ _ hq => hq) r
      (fun u hu' hrole => keeps_applyGain_of_mem hk hsub hu (ha u hu' hrole)) p t ⟨rfl, h⟩).2
    show (afterRequest (Pull.answer r (p, t))).cache.Sound now
    generalize Pull.answer r (p, t) = m at hm ⊢
    cases m <;> exact hm
  | lookup text => exact h.lookup text
  | holdSlot id => exact h.hold id
  | dropSlot id => exact h.drop id
  | releaseSlot id => exact h.release id
  | fill id e =>
    refine h.set fun slot hs k hk r s hrs hkey => ?_
    have hg : e.gain? = some k := hk
    exact absurd hkey (ha slot hs (by rw [hg]; rfl) r s (hsub hrs))
  | clear => exact h.clear

theorem Reachable.sound_of_apart {now : Uses} (hk : Set.InjOn CacheKey.ofText used.texts)
    (hsub : now ⊆ used) (hu : now.Apart used) (h : Reachable used p) : p.cache.Sound now := by
  induction h with
  | empty => exact ObjectCache.sound_empty
  | act _ ha ih => exact sound_act hk hsub hu ih ha

theorem Reachable.sound (hk : Set.InjOn CacheKey.ofText used.texts) (hu : used.Separate)
    (h : Reachable used p) : p.cache.Sound used := h.sound_of_apart hk (fun _ hx => hx) hu

lemma dropSlot_network (p : Pipeline) (slot : Option SlotId) :
    (p.dropSlot slot).network = p.network := by
  cases slot <;> rfl

lemma retire_network (p : Pipeline) (s : Stage) : (p.retire s).network = p.network := by
  rw [Pipeline.retire]
  split
  · rfl
  · exact dropSlot_network _ _
  · rfl
  · rfl

lemma settle_network (p : Pipeline) (r : List Stage × Network) : (p.settle r).network = r.2 := by
  rw [Pipeline.settle]
  generalize hq : ({ p with network := r.2 } : Pipeline) = q
  have hn : q.network = r.2 := by rw [← hq]
  clear hq
  induction r.1 generalizing q with
  | nil => exact hn
  | cons s ss ih => exact ih _ ((retire_network q s).trans hn)

lemma edit_network (p : Pipeline) (e : Edit) :
    (p.edit e).network = p.network.edit e ∨ (p.edit e).network = p.network := by
  cases e with
  | create q =>
    left
    show (p.orStay ((p.create q).map (·.2))).network = _
    rw [Pipeline.create, Network.edit]
    cases q.filter <;> rfl
  | hold id => exact .inl rfl
  | drop id => exact .inl (settle_network p _)
  | connect plug socket =>
    left
    show (p.orStay (p.connect plug socket)).network = _
    rw [Pipeline.connect, Network.edit]
    rcases Network.connect_cases p.network plug socket with ⟨e, he⟩ | ⟨-, -, -, he⟩
    · rw [he]
      rfl
    · rw [he]
      exact settle_network p _
  | disconnect plug => exact .inl (settle_network p _)
  | setOptions id o => exact .inl rfl
  | setImage socket i =>
    show (p.orStay (p.setImage socket i)).network = _ ∨ (p.orStay (p.setImage socket i)).network = _
    rw [Pipeline.setImage]
    cases p.network.socket socket with
    | ok c => exact .inl rfl
    | error e => exact .inr rfl
  | convert input output => exact .inl rfl
  | setInput c id => exact .inl (settle_network p _)
  | setOutput c id => exact .inl (settle_network p _)
  | release c => exact .inl (settle_network p _)

lemma network_answer [Memory] (r : Request) (p : Pipeline) (t : Ticket) :
    (afterRequest (Pull.answer r (p, t))).network = p.network := by
  have hd (u : Stage) : Pull.Keeps (fun q => q.network = p.network) (Pull.applyGain u) :=
    Pull.keeps_applyGain (fun q hq => (drawGain_network u q).trans hq) fun _ _ _ hq => hq
  have hm := keeps_answer (fun _ hq => hq) (fun _ _ hq => hq) r (fun u _ _ => hd u) p t rfl
  generalize Pull.answer r (p, t) = m at hm ⊢
  cases m <;> exact hm

theorem Reachable.exists_run (h : Reachable used p) : ∃ edits, p.network = Network.run edits := by
  induction h with
  | empty => exact ⟨[], rfl⟩
  | @act p a _ _ ih =>
    obtain ⟨edits, he⟩ := ih
    cases a with
    | edit e =>
      rcases edit_network p e with hn | hn
      · refine ⟨edits ++ [e], ?_⟩
        show (p.edit e).network = _
        rw [hn, he, Network.run, Network.run, List.foldl_append]
        rfl
      · exact ⟨edits, hn.trans he⟩
    | request _ r t => exact ⟨edits, (network_answer r p t).trans he⟩
    | lookup text => exact ⟨edits, he⟩
    | holdSlot id => exact ⟨edits, he⟩
    | dropSlot id => exact ⟨edits, he⟩
    | releaseSlot id => exact ⟨edits, he⟩
    | fill id e => exact ⟨edits, he⟩
    | clear => exact ⟨edits, he⟩

lemma Reachable.consistent (h : Reachable used p) : p.network.Consistent := by
  obtain ⟨edits, he⟩ := h.exists_run
  rw [he]
  exact Network.consistent_run edits

end Pipeline

end ColourPipeline
