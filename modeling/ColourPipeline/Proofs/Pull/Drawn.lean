import ColourPipeline.Proofs.Pull.Custody
import ColourPipeline.Proofs.Pull.Tally

namespace ColourPipeline

def lastDrawn (rs : List Run) (id : StageId) : Option SlotId :=
  ((rs.filter (·.stage.id = id)).filterMap (·.drew)).getLast?

section LastDrawn

variable {rs : List Run} {r : Run} {id : StageId}

lemma lastDrawn_concat : lastDrawn (rs ++ [r]) id =
    if r.stage.id = id then r.drew.or (lastDrawn rs id) else lastDrawn rs id := by
  rw [lastDrawn, lastDrawn, List.filter_append, List.filterMap_append]
  by_cases hid : r.stage.id = id
  · cases hd : r.drew <;> simp [hid, hd]
  · simp [hid]

lemma lastDrawn_eq_none (h : ∀ r ∈ rs, r.stage.id ≠ id) : lastDrawn rs id = none := by
  have hn : rs.filter (·.stage.id = id) = [] :=
    List.filter_eq_nil_iff.2 fun r hr => by simpa using h r hr
  rw [lastDrawn, hn]
  rfl

end LastDrawn

namespace Network

variable {net : Network}

def Whole (net : Network) : Prop := ∀ id < net.created, id ∈ net.ids

instance (net : Network) : Decidable net.Whole :=
  inferInstanceAs (Decidable (∀ id < net.created, id ∈ net.ids))

lemma Parts.whole {r : List Stage × Network} (h : net.Parts r) (hc : net.Consistent)
    (hw : r.2.Whole) : net.Whole ∧ r.1 = [] := by
  have hp := h.stages.map Prod.fst
  rw [List.map_map, List.map_map, List.map_append] at hp
  constructor
  · exact fun id hid => hp.subset (List.mem_append_right _ (hw id (h.created ▸ hid)))
  · rw [List.eq_nil_iff_forall_not_mem]
    intro s hs
    have hid : s.id ∈ net.ids := hp.subset (List.mem_append_left _ (List.mem_map_of_mem hs))
    exact (h.of_freed hc.nodup hs).2 (hw s.id (h.created ▸ hc.fresh s.id hid))

lemma Whole.of_create {q : Provider} {f : Filter} (h : (net.create q f).2.Whole) : net.Whole := by
  intro id hid
  have hm := h id (Nat.lt_succ_of_lt hid)
  rw [ids, create, List.map_append, List.mem_append] at hm
  rcases hm with hm | hm
  · exact hm
  · exact absurd (List.mem_singleton.1 hm) hid.ne

end Network

structure Drawing (alone : Prop) (callers : List SlotId) (rs : List Run) (p : Pipeline) : Prop
    extends Current rs p, Pipeline.Custody alone callers p where
  last : ∀ id s, p.network.find? id = some s → s.filter.role = .transform →
    (p.transform s.provider.id).drawn.lookup id = lastDrawn rs id

namespace Drawing

variable {alone : Prop} {callers : List SlotId} {rs : List Run} {p : Pipeline} {s : Stage}

lemma empty : Drawing alone [] [] {} where
  toCurrent := .empty
  toCustody := .empty
  last _ _ h := by cases h

lemma mono {alone' : Prop} (h : Drawing alone callers rs p) (ha : alone' → alone) :
    Drawing alone' callers rs p :=
  ⟨h.toCurrent, h.toCustody.mono ha, h.last⟩

lemma settle {alone' : Prop} (h : Drawing alone callers rs p) (hc : p.network.Consistent)
    {r : List Stage × Network} (hr : p.network.Parts r) (ha : alone' → alone ∧ r.1 = []) :
    Drawing alone' callers rs (p.settle r) where
  toCurrent := h.toCurrent.settle hc hr
  toCustody := h.toCustody.settle r ha
  last id t ht hrole := by
    rw [Pipeline.settle_network] at ht
    obtain ⟨s, hs, he⟩ := hr.of_left hc.nodup ht
    rw [Pipeline.transform_settle,
      TransformState.lookup_without (Current.notMem_clients hr hc ht),
      ← Network.identity_provider he]
    exact h.last id s hs (by rw [Network.identity_filter he, hrole])

lemma create (h : Drawing alone callers rs p) (q : Provider) (f : Filter) :
    Drawing alone callers rs { p with network := (p.network.create q f).2 } where
  toCurrent := h.toCurrent.create q f
  toCustody := ⟨h.counted, h.stored, h.providers, h.once, h.only⟩
  last id s hs hrole := by
    rcases h.toCurrent.of_create hs with hs | ⟨hm, hr⟩
    · exact h.last id s hs hrole
    · rw [lastDrawn_eq_none hr]
      exact TransformState.lookup_of_not_mentions (hm s.provider.id)

lemma idle (h : Drawing alone callers rs p) (hc : p.network.Consistent) {r : Run}
    (hr : p.network.find? r.stage.id = some r.stage) (hi : r.Idle) :
    Drawing alone callers (rs ++ [r]) p where
  toCurrent := h.toCurrent.idle hc hr
  toCustody := h.toCustody
  last id s hs hrole := by
    rw [lastDrawn_concat, hi.1, Option.none_or, ite_self]
    exact h.last id s hs hrole

lemma gain {t : Ticket} (h : Drawing alone callers rs p) (hc : p.network.Consistent)
    (hs : p.network.find? s.id = some s) (hrole : s.filter.role = .transform) :
    Drawing alone callers (rs ++ [Pull.gainRun s (p, t)]) (Pull.applied s (p, t)).1 where
  toCurrent := h.toCurrent.gain hc hs hrole
  toCustody := h.toCustody.applied s
  last id u hu hrole' := by
    have hn : (Pull.applied s (p, t)).1.network = p.network := Pipeline.drawGain_network s p
    rw [hn] at hu
    have hlast := h.last id u hu hrole'
    have hstage : (Pull.gainRun s (p, t)).stage = s := rfl
    rw [lastDrawn_concat, hstage, Pipeline.transform_applied, ← hlast]
    by_cases hid : s.id = id
    · subst hid
      obtain rfl : s = u := Option.some.inj (hs.symm.trans hu)
      rw [if_pos rfl, if_pos rfl]
      exact Table.lookup_put_self _ _ _
    · rw [if_neg hid]
      split
      · rename_i hq
        rw [hq]
        exact Table.lookup_put_of_ne (Ne.symm hid) _ _
      · rfl

lemma report (h : Drawing alone callers rs p) (e : Event) :
    Drawing alone callers rs (p.report e) where
  toCurrent := h.toCurrent.report e
  toCustody := h.toCustody.report e
  last := h.last

lemma request [Memory] (h : Drawing alone callers rs p) (hc : p.network.Consistent) (r : Request)
    (t : Ticket) : Drawing alone callers (rs ++ Pull.requested r (p, t))
      (Work.left (Pull.answer r (p, t))).1 :=
  Pull.records_request h hc (fun _ _ e h => h.report e) (fun _ _ _ h hc hr hi => h.idle hc hr hi)
    (fun _ _ _ _ h hc hs hrole => h.gain hc hs hrole) r t

lemma deal (h : Drawing alone callers rs p) {d : Dealing} (hd : d ≠ .clear) :
    Drawing False (Lending.step ⟨p.cache, callers⟩ d).callers rs
      (p.onCache fun _ => (Lending.step ⟨p.cache, callers⟩ d).cache) where
  toCurrent := h.toCurrent.onCache fun _ => (Lending.step ⟨p.cache, callers⟩ d).cache
  toCustody := h.toCustody.deal hd
  last := h.last

end Drawing

namespace Workshop

def Alone (turns : List Turn) : Prop :=
  (∀ d, .deal d ∉ turns) ∧ (run turns).pipeline.network.Whole

lemma Alone.of_concat {turns : List Turn} {a : Turn} (h : Alone (turns ++ [a]))
    (hw : ((run turns).step a).pipeline.network.Whole → (run turns).pipeline.network.Whole) :
    Alone turns := by
  rw [Alone, run_concat] at h
  exact ⟨fun d hd => h.1 d (List.mem_append_left _ hd), hw h.2⟩

lemma drawing_run {turns : List Turn} (ht : .deal .clear ∉ turns) :
    Drawing (Alone turns) (run turns).callers (run turns).runs (run turns).pipeline := by
  induction turns using List.reverseRecOn with
  | nil => exact .empty
  | append_singleton turns a ih =>
    rw [List.mem_append, not_or] at ht
    have hd := ih ht.1
    have hc := consistent_run turns
    cases a with
    | edit e =>
      rcases Pipeline.edit_cases hc e with ⟨r, hr, he⟩ | ⟨q, f, he⟩
      · -- If all stages are there in the end, all were there before and the edit frees none.
        have ha (h : Alone (turns ++ [.edit e])) : Alone turns ∧ r.1 = [] := by
          have hw := h.2
          rw [run_concat, step, he] at hw
          have hw := hr.whole hc ((Pipeline.settle_network _ _) ▸ hw)
          exact ⟨h.of_concat fun _ => hw.1, hw.2⟩
        have hs := hd.settle hc hr ha
        rw [← he] at hs
        rw [run_concat]
        exact hs
      · have hs := (hd.create q f).mono fun h : Alone (turns ++ [.edit e]) =>
          h.of_concat fun hw => by
            rw [step, he] at hw
            exact hw.of_create
        rw [← he] at hs
        rw [run_concat]
        exact hs
    | request m r t =>
      rw [run_concat]
      exact (hd.request hc r t).mono fun h => h.of_concat fun hw => network_request _ m r t ▸ hw
    | deal d =>
      rw [run_concat]
      have hne : d ≠ .clear := fun h => ht.2 (List.mem_singleton.2 (congrArg Turn.deal h.symm))
      exact (hd.deal hne).mono fun h => h.1 d (List.mem_append_right _ (List.mem_singleton.2 rfl))

lemma callers_run {turns : List Turn} (h : ∀ d, .deal d ∉ turns) : (run turns).callers = [] := by
  induction turns using List.reverseRecOn with
  | nil => rfl
  | append_singleton turns a ih =>
    rw [run_concat]
    have hn := ih fun d hd => h d (List.mem_append_left _ hd)
    cases a with
    | edit e => exact hn
    | request m r t => exact hn
    | deal d => exact absurd (List.mem_append_right _ (List.mem_singleton.2 rfl)) (h d)

end Workshop

/-- A slot that a stage drew from last stays in the cache, whatever stages and others do short of
clearing it. With no others, and while no stage goes, there is nothing else in it. -/
theorem stored_run (turns : List Turn) (ht : .deal .clear ∉ turns) :
    (∀ s ∈ (Workshop.run turns).pipeline.network.stages, s.filter.role = .transform →
      ∀ id, lastDrawn (Workshop.run turns).runs s.id = some id →
        (Workshop.run turns).pipeline.cache.Stored id) ∧
    (Workshop.Alone turns →
      ∀ id, (∃ k, (Workshop.run turns).pipeline.cache.filed? k = some id) ↔
        ∃ s ∈ (Workshop.run turns).pipeline.network.stages, s.filter.role = .transform ∧
          lastDrawn (Workshop.run turns).runs s.id = some id) := by
  have h := Workshop.drawing_run ht
  have hfind {s : Stage} (hs : s ∈ (Workshop.run turns).pipeline.network.stages) :=
    Network.find?_of_mem (Workshop.consistent_run turns).nodup hs
  have hstored : ∀ s ∈ (Workshop.run turns).pipeline.network.stages, s.filter.role = .transform →
      ∀ id, lastDrawn (Workshop.run turns).runs s.id = some id →
        (Workshop.run turns).pipeline.cache.Stored id := fun s hs hrole id hid =>
    h.stored id (Pipeline.mem_drawnSlots ((h.last s.id s (hfind hs) hrole).trans hid))
  refine ⟨hstored, fun ha id => ⟨?_, ?_⟩⟩
  · rintro ⟨k, hk⟩
    have hm := h.only ha id (h.counted.stored hk)
    rw [Workshop.callers_run ha.1, List.nil_append] at hm
    obtain ⟨q, i, hi⟩ := h.toCustody.exists_drawn hm
    have hmention : ((Workshop.run turns).pipeline.transform q).Mentions i := by
      by_contra hn
      rw [TransformState.lookup_of_not_mentions hn] at hi
      cases hi
    obtain ⟨s, hs, hrole, rfl⟩ := h.mentions q i hmention
    have hid : s.id = i := Network.id_of_find? hs
    exact ⟨s, List.mem_of_find?_eq_some hs, hrole,
      hid.symm ▸ (h.last i s hs hrole).symm.trans hi⟩
  · rintro ⟨s, hs, hrole, hid⟩
    obtain ⟨k, -, hk⟩ := hstored s hs hrole id hid
    exact ⟨k, hk⟩

namespace Workshop

open Pipeline

def moved : List Turn :=
  benched .empty ++ [probe, .edit (.setOptions 1 Filter.gain.defaults), probe]

lemma run_moved : run moved =
    (((atBench .empty).step probe).step
      (.edit (.setOptions 1 Filter.gain.defaults))).step probe := by
  have h : run moved = [probe, .edit (.setOptions 1 Filter.gain.defaults), probe].foldl step
      (run (benched .empty)) := List.foldl_append
  rw [h, run_benched]
  rfl

lemma lastDrawn_moved : lastDrawn (run moved).runs 1 = some 1 := by
  rw [run_moved]
  decide +kernel

lemma network_moved : (run moved).pipeline.network =
    bench ⟨"icc.transform"⟩ Filter.gain.defaults := by
  have hset (w : Workshop) (o : OptionSet) :
      (w.step (.edit (.setOptions 1 o))).pipeline.network = w.pipeline.network.setOptions 1 o := rfl
  rw [run_moved, probe, network_request, hset, network_request]
  rfl

theorem stored_run_moved : (run moved).pipeline.cache.Stored 1 ∧
    ∀ id, (∃ k, (run moved).pipeline.cache.filed? k = some id) ↔ id = 1 := by
  have hdeal (d : Dealing) : .deal d ∉ moved := by simp [moved, benched, probe]
  have hwhole : (run moved).pipeline.network.Whole := by
    rw [network_moved]
    decide
  have h := stored_run moved (hdeal .clear)
  have hmem : gainStage ⟨"icc.transform"⟩ Filter.gain.defaults ∈
      (run moved).pipeline.network.stages := by
    rw [network_moved]
    exact List.mem_cons_of_mem _ List.mem_cons_self
  refine ⟨h.1 _ hmem rfl 1 lastDrawn_moved, fun id => (h.2 ⟨hdeal, hwhole⟩ id).trans ⟨?_, ?_⟩⟩
  · rintro ⟨s, hs, hrole, hid⟩
    rw [network_moved] at hs
    rcases List.mem_pair.1 hs with rfl | rfl
    · cases hrole
    · exact Option.some.inj (hid.symm.trans lastDrawn_moved)
  · rintro rfl
    exact ⟨_, hmem, rfl, lastDrawn_moved⟩

end Workshop

end ColourPipeline
