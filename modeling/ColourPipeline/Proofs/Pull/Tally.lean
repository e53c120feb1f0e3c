import ColourPipeline.Proofs.Pull.Exact
import ColourPipeline.Proofs.Pull.Transforms

namespace ColourPipeline

def Counts.ofTickets (ts : List Ticket) : Counts := ⟨ts.length, (ts.map (·.array.size)).sum⟩

lemma Counts.ofTickets_concat (ts : List Ticket) (t : Ticket) :
    ofTickets (ts ++ [t]) = (ofTickets ts).add t.array.size := by
  simp [ofTickets, add]

def delivered (rs : List Run) (id : StageId) (workspace : ℤ) : List Ticket :=
  ((rs.filter (·.stage.id = id)).filterMap (·.delivered?)).filter (·.workspace = workspace)

section Delivered

variable {rs : List Run} {r : Run} {id : StageId} {workspace : ℤ}

lemma delivered_concat : delivered (rs ++ [r]) id workspace = delivered rs id workspace ++
    (if r.stage.id = id then (r.delivered?.filter (·.workspace = workspace)).toList else []) := by
  simp only [delivered, List.filter_append, List.filterMap_append]
  congr 1
  by_cases hid : r.stage.id = id
  · cases hd : r.delivered? with
    | none => simp [hid, hd]
    | some t => by_cases hw : t.workspace = workspace <;> simp [hid, hd, hw, Option.filter]
  · simp [hid]

lemma delivered_of_idle (h : r.stage.id = id → r.delivered? = none) :
    delivered (rs ++ [r]) id workspace = delivered rs id workspace := by
  rw [delivered_concat]
  split
  · rename_i hid
    rw [h hid]
    simp
  · simp

lemma delivered_eq_nil (h : ∀ r ∈ rs, r.stage.id ≠ id) : delivered rs id workspace = [] := by
  have hn : rs.filter (·.stage.id = id) = [] :=
    List.filter_eq_nil_iff.2 fun r hr => by simpa using h r hr
  rw [delivered, hn]
  rfl

end Delivered

structure Tallied (rs : List Run) (p : Pipeline) : Prop extends Current rs p where
  counts : ∀ id s, p.network.find? id = some s → s.filter.role = .transform → ∀ workspace,
    (p.transform s.provider.id).count id workspace = .ofTickets (delivered rs id workspace)

namespace Tallied

variable {rs : List Run} {p : Pipeline} {s : Stage}

lemma empty : Tallied [] {} where
  toCurrent := .empty
  counts _ _ h := by cases h

lemma settle (h : Tallied rs p) (hc : p.network.Consistent) {r : List Stage × Network}
    (hr : p.network.Parts r) : Tallied rs (p.settle r) where
  toCurrent := h.toCurrent.settle hc hr
  counts id t ht hrole workspace := by
    rw [Pipeline.settle_network] at ht
    obtain ⟨s, hs, he⟩ := hr.of_left hc.nodup ht
    rw [Pipeline.transform_settle,
      TransformState.count_without (Current.notMem_clients hr hc ht),
      ← Network.identity_provider he]
    exact h.counts id s hs (by rw [Network.identity_filter he, hrole]) workspace

lemma create (h : Tallied rs p) (q : Provider) (f : Filter) :
    Tallied rs { p with network := (p.network.create q f).2 } where
  toCurrent := h.toCurrent.create q f
  counts id s hs hrole workspace := by
    rcases h.toCurrent.of_create hs with hs | ⟨hm, hr⟩
    · exact h.counts id s hs hrole workspace
    · rw [delivered_eq_nil hr]
      exact TransformState.count_of_not_mentions (hm s.provider.id)

lemma idle (h : Tallied rs p) (hc : p.network.Consistent) {r : Run}
    (hr : p.network.find? r.stage.id = some r.stage) (hi : r.Idle) : Tallied (rs ++ [r]) p where
  toCurrent := h.toCurrent.idle hc hr
  counts id s hs hrole workspace := by
    rw [delivered_of_idle]
    · exact h.counts id s hs hrole workspace
    · rintro rfl
      obtain rfl : r.stage = s := Option.some.inj (hr.symm.trans hs)
      exact hi.2 hrole

lemma gain {t : Ticket} (h : Tallied rs p) (hc : p.network.Consistent)
    (hs : p.network.find? s.id = some s) (hrole : s.filter.role = .transform) :
    Tallied (rs ++ [Pull.gainRun s (p, t)]) (Pull.applied s (p, t)).1 where
  toCurrent := h.toCurrent.gain hc hs hrole
  counts id u hu hrole' workspace := by
    have hn : (Pull.applied s (p, t)).1.network = p.network := Pipeline.drawGain_network s p
    rw [hn] at hu
    have hcount := h.counts id u hu hrole' workspace
    have hd : (Pull.gainRun s (p, t)).delivered? = some (Pull.applied s (p, t)).2 := rfl
    have hw : (Pull.applied s (p, t)).2.workspace = t.workspace := rfl
    have hstage : (Pull.gainRun s (p, t)).stage = s := rfl
    -- Both sides change for the stage that ran and the workspace of its ticket, and for no others.
    rw [delivered_concat, hd, hstage, Pipeline.transform_applied]
    by_cases hid : s.id = id
    · subst hid
      obtain rfl : s = u := Option.some.inj (hs.symm.trans hu)
      rw [if_pos rfl, if_pos rfl, TransformState.count_record]
      by_cases hworkspace : workspace = t.workspace
      · subst hworkspace
        rw [if_pos ⟨rfl, rfl⟩, Option.filter_some, if_pos (by simp [hw]), Option.toList_some,
          Counts.ofTickets_concat, ← hcount]
        rfl
      · rw [if_neg fun h => hworkspace h.2, Option.filter_some,
          if_neg (by simpa [hw] using Ne.symm hworkspace), Option.toList_none, List.append_nil]
        exact hcount
    · rw [if_neg hid, List.append_nil, ← hcount]
      split
      · rename_i hq
        rw [TransformState.count_record, if_neg fun h => hid h.1.symm, ← hq]
        rfl
      · rfl

lemma report (h : Tallied rs p) (e : Event) : Tallied rs (p.report e) :=
  ⟨h.toCurrent.report e, h.counts⟩

lemma request [Memory] (h : Tallied rs p) (hc : p.network.Consistent) (r : Request) (t : Ticket) :
    Tallied (rs ++ Pull.requested r (p, t)) (Work.left (Pull.answer r (p, t))).1 :=
  Pull.records_request h hc (fun _ _ e h => h.report e) (fun _ _ _ h hc hr hi => h.idle hc hr hi)
    (fun _ _ _ _ h hc hs hrole => h.gain hc hs hrole) r t

lemma run (turns : List Turn) :
    Tallied (Workshop.run turns).runs (Workshop.run turns).pipeline := by
  induction turns using List.reverseRecOn with
  | nil => exact .empty
  | append_singleton turns a ih =>
    have hc := Workshop.consistent_run turns
    rw [Workshop.run_concat]
    cases a with
    | edit e =>
      rw [Workshop.step]
      rcases Pipeline.edit_cases hc e with ⟨r, hr, he⟩ | ⟨q, f, he⟩
      · exact he.symm ▸ ih.settle hc hr
      · exact he.symm ▸ ih.create q f
    | request m r t => exact ih.request hc r t
    | deal d =>
      let l := Lending.step ⟨(Workshop.run turns).pipeline.cache, (Workshop.run turns).callers⟩ d
      exact ⟨ih.toCurrent.onCache fun _ => l.cache, ih.counts⟩

end Tallied

/-- However requests, edits and others' dealings take turns: a transform has counted what each of
its stages delivered to each workspace, and it keeps nothing of a stage that is gone. -/
theorem tallied_run (turns : List Turn) :
    (∀ s ∈ (Workshop.run turns).pipeline.network.stages, s.filter.role = .transform →
      ∀ workspace, ((Workshop.run turns).pipeline.transform s.provider.id).count s.id workspace =
        .ofTickets (delivered (Workshop.run turns).runs s.id workspace)) ∧
    ∀ q id, ((Workshop.run turns).pipeline.transform q).Mentions id →
      id ∈ (Workshop.run turns).pipeline.network.ids := by
  have h := Tallied.run turns
  refine ⟨fun s hs hrole => ?_, fun q id hid => ?_⟩
  · exact h.counts s.id s
      (Network.find?_of_mem (Workshop.consistent_run turns).nodup hs) hrole
  · obtain ⟨s, hs, -⟩ := h.mentions q id hid
    exact Network.find?_isSome.1 (Option.isSome_of_eq_some hs)

namespace Workshop

open Pipeline

def benched (s : OptionSet) : List Turn :=
  [.edit (.create (imageStage none).provider),
    .edit (.create (gainStage ⟨"icc.transform"⟩ s).provider),
    .edit (.connect ⟨1, 0⟩ ⟨0, 0⟩),
    .edit (.setImage ⟨0, 0⟩ (.filled 1 1 Gain.probe)),
    .edit (.setOptions 1 s)]

def atBench (s : OptionSet) : Workshop where
  pipeline := { network := bench ⟨"icc.transform"⟩ s }

lemma run_benched (s : OptionSet) : run (benched s) = atBench s := by
  have htwo : run ((benched s).take 2) = { pipeline := { network :=
      ⟨[imageStage none, gainStage ⟨"icc.transform"⟩ Filter.gain.defaults], [], [], 2⟩ } } := rfl
  have hthree : run ((benched s).take 3) = { pipeline := { network :=
      ⟨[imageStage none, gainStage ⟨"icc.transform"⟩ Filter.gain.defaults],
        [(⟨1, 0⟩, ⟨0, 0⟩)], [(⟨0, 0⟩, [⟨1, 0⟩])], 2⟩ } } := by
    show (run ((benched s).take 2)).step (.edit (.connect ⟨1, 0⟩ ⟨0, 0⟩)) = _
    rw [htwo, step, Pipeline.edit, Pipeline.connect, connect_bench]
    rfl
  show ((run ((benched s).take 3)).step (.edit (.setImage ⟨0, 0⟩ (.filled 1 1 Gain.probe)))).step
    (.edit (.setOptions 1 s)) = _
  rw [hthree]
  rfl

def probe : Turn := .request ample (.socket ⟨1, 0⟩) probing

lemma run_probe (s : OptionSet) : run (benched s ++ [probe]) = (atBench s).step probe := by
  rw [run_concat, run_benched]

lemma delivered_probe : delivered (run (benched .empty ++ [probe])).runs 1 0 =
    [Pipeline.probed (Gain.ofOptions .empty)] := by
  rw [run_probe]
  rfl

theorem tallied_run_probe :
    ((run (benched .empty ++ [probe])).pipeline.transform 1).count 1 0 = ⟨1, 1⟩ ∧
      ((run (benched .empty ++ [probe])).pipeline.transform 1).Mentions 1 ∧
      1 ∈ (run (benched .empty ++ [probe])).pipeline.network.ids := by
  have hmem : gainStage ⟨"icc.transform"⟩ .empty ∈
      (run (benched .empty ++ [probe])).pipeline.network.stages := by
    rw [run_probe]
    exact List.mem_cons_of_mem _ List.mem_cons_self
  have hm : ((run (benched .empty ++ [probe])).pipeline.transform 1).Mentions 1 := by
    rw [run_probe]
    exact .inl List.mem_cons_self
  have hcount := (tallied_run (benched .empty ++ [probe])).1 _ hmem rfl 0
  refine ⟨hcount.trans ?_, hm, (tallied_run (benched .empty ++ [probe])).2 1 1 hm⟩
  show Counts.ofTickets (delivered _ 1 0) = _
  rw [delivered_probe]
  rfl

end Workshop

end ColourPipeline
