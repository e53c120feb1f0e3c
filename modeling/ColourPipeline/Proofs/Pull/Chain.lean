import ColourPipeline.Proofs.Graph.Tidy
import ColourPipeline.Proofs.Pull.Line
import ColourPipeline.Proofs.Pull.Runs

/-! The calls that a pull takes upstream, up to one that answers of itself. -/

namespace ColourPipeline

namespace Filter

def Forwards (f : Filter) : Prop := f = .gain ∨ f = .imageOutput

def IsBuiltin (f : Filter) : Prop := f = .imageRoot ∨ f.Forwards

end Filter

namespace Pull

abbrev Outcome := EStateM.Result Stop (Pipeline × Ticket) Progress

structure Call where
  stage : Stage
  socket : ℕ
  requestor : Option Contact

def call? (net : Network) (s : Stage) (plug : ℕ) : Option Call :=
  match s.plug plug, net.remote? ⟨s.id, plug⟩ with
  | .ok _, some remote => (net.find? remote.stage).map (⟨·, remote.index, some ⟨s.id, plug⟩⟩)
  | _, _ => none

def bare (s : Stage) (plug : ℕ) (x : Pipeline × Ticket) : Outcome :=
  match s.plug plug with
  | .ok _ => .ok .unchanged x
  | .error e => .error (.error e) x

def passed (s : Stage) : Outcome → Outcome
  | .ok .advanced x => .ok .advanced (if s.filter.role = .transform then applied s x else x)
  | r => r

namespace Call

def next? (net : Network) (c : Call) : Option Call := (inlet? net c.stage).bind (call? net c.stage)

def enter (c : Call) (x : Pipeline × Ticket) : Pipeline × Ticket :=
  (entered c.stage c.socket c.requestor x.1, x.2)

def alone [Memory] (c : Call) (x : Pipeline × Ticket) : Outcome :=
  match inlet? x.1.network c.stage with
  | some plug => bare c.stage plug x
  | none =>
    match c.stage.filter.role with
    | .source | .host .serve => serve c.stage c.socket x
    | .host (.answer progress) => .ok progress x
    | .host (.refuse text) => .error (.error (.codec (.reported text))) x
    | _ => .ok .unchanged x

end Call

/-- What a call comes to, with the calls that it takes. -/
inductive Answers [Memory] : Call → Pipeline × Ticket → List Call → Outcome → Prop
  | last {c x} (h : c.next? x.1.network = none) : Answers c x [c] (c.alone (c.enter x))
  | pulls {c d x calls r} (h : c.next? x.1.network = some d) (hd : Answers d (c.enter x) calls r) :
    Answers c x (c :: calls) (passed c.stage r)

variable {net : Network} {s : Stage} {plug depth : ℕ} {x : Pipeline × Ticket} {c d : Call}
  {calls calls' : List Call} {r r' : Outcome}

lemma through_eq_call [Memory] (s : Stage) (plug : ℕ) (x : Pipeline × Ticket) :
    through (service depth) s plug x = match call? x.1.network s plug with
      | some d => service depth d.stage d.socket d.requestor x
      | none => bare s plug x := by
  rw [through_eq, call?, bare]
  cases s.plug plug with
  | error e => rfl
  | ok _ =>
    cases x.1.network.remote? ⟨s.id, plug⟩ with
    | none => rfl
    | some remote => cases hf : x.1.network.find? remote.stage <;> simp [hf]

lemma network_enter (c : Call) (x : Pipeline × Ticket) : (c.enter x).1.network = x.1.network := by
  rw [Call.enter, entered]
  split <;> rfl

lemma passed_of_role (h : s.filter.role ≠ .transform) (r : Outcome) : passed s r = r := by
  cases r with
  | error e x => rfl
  | ok progress x =>
    cases progress with
    | advanced => rw [passed, if_neg h]
    | completed => rfl
    | unchanged => rfl

lemma enter_of_role (h : ∀ action, c.stage.filter.role ≠ .host action) : c.enter x = x := by
  rw [Call.enter, entered]
  split
  · exact absurd ‹_› (h _)
  · rfl

lemma service_succ [Memory] (c : Call) (x : Pipeline × Ticket) :
    service (depth + 1) c.stage c.socket c.requestor x = match c.next? x.1.network with
      | some d => passed c.stage (service depth d.stage d.socket d.requestor (c.enter x))
      | none => c.alone (c.enter x) := by
  obtain ⟨s, socket, requestor⟩ := c
  rw [Call.next?, Call.alone, network_enter]
  dsimp only
  cases hrole : s.filter.role with
  | source =>
    have hin : inlet? x.1.network s = none := by rw [inlet?, hrole]
    rw [service_source _ _ _ _ hrole, hin, enter_of_role (by simp [hrole]), Option.bind_none]
  | output =>
    have hne : s.filter.role ≠ .transform := by simp [hrole]
    rw [service_output _ _ _ _ hrole, inlet?, hrole, enter_of_role (by simp [hrole])]
    dsimp only
    split
    · rw [through_eq_call, Option.bind_some]
      cases call? x.1.network s 0 with
      | none => rfl
      | some d => exact (passed_of_role hne _).symm
    · rfl
  | transform =>
    have hin : inlet? x.1.network s = some 0 := by rw [inlet?, hrole]
    rw [service_transform _ _ _ _ hrole, hin, enter_of_role (by simp [hrole]), through_eq_call,
      Option.bind_some]
    cases call? x.1.network s 0 with
    | none =>
      dsimp only
      rw [bare]
      cases s.plug 0 <;> rfl
    | some d =>
      dsimp only
      generalize service depth d.stage d.socket d.requestor x = pulled
      cases pulled with
      | error e y => rfl
      | ok progress y =>
        cases progress with
        | advanced => rw [passed, if_pos hrole]
        | completed => rfl
        | unchanged => rfl
  | host action =>
    have hne : s.filter.role ≠ .transform := by simp [hrole]
    have henter : Call.enter ⟨s, socket, requestor⟩ x =
        (x.1.report (.ran s.id socket requestor), x.2) := by rw [Call.enter, entered, hrole]
    rw [service_host _ _ _ _ _ hrole, inlet?, hrole, henter]
    cases action with
    | pull plug =>
      dsimp only
      rw [through_eq_call, Option.bind_some]
      show (match call? x.1.network s plug with
        | some d => _
        | none => _) = _
      cases call? x.1.network s plug with
      | none => rfl
      | some d => exact (passed_of_role hne _).symm
    | serve => rfl
    | answer progress => rfl
    | refuse text => rfl

namespace Answers

lemma service_eq [Memory] (h : Answers c x calls r) (hd : calls.length ≤ depth) :
    service depth c.stage c.socket c.requestor x = r := by
  induction h generalizing depth with
  | last h =>
    obtain ⟨depth, rfl⟩ := Nat.exists_eq_succ_of_ne_zero (Nat.pos_iff_ne_zero.1 hd)
    rw [service_succ, h]
  | pulls h _ ih =>
    obtain ⟨depth, rfl⟩ := Nat.exists_eq_add_of_le' (Nat.le_of_add_left_le hd)
    rw [service_succ, h]
    dsimp only
    rw [ih (Nat.le_of_succ_le_succ hd)]

lemma unique [Memory] (h : Answers c x calls r) (h' : Answers c x calls' r') :
    calls' = calls ∧ r' = r := by
  induction h generalizing calls' r' with
  | last h =>
    cases h' with
    | last _ => exact ⟨rfl, rfl⟩
    | pulls h' _ => cases h.symm.trans h'
  | pulls h _ ih =>
    cases h' with
    | last h' => cases h.symm.trans h'
    | pulls h' hd' =>
      cases Option.some.inj (h.symm.trans h')
      obtain ⟨rfl, rfl⟩ := ih hd'
      exact ⟨rfl, rfl⟩

lemma head? [Memory] (h : Answers c x calls r) : calls.head? = some c := by
  cases h <;> rfl

lemma isChain [Memory] (h : Answers c x calls r) :
    calls.IsChain fun c d => c.next? x.1.network = some d := by
  induction h with
  | last h => exact .singleton _
  | @pulls c d x calls r h hd ih =>
    rw [network_enter] at ih
    refine List.isChain_cons.2 ⟨fun e he => ?_, ih⟩
    rw [hd.head?] at he
    rwa [← Option.some.inj he]

end Answers

structure Passes (net : Network) (plug : ℕ) (c d : Call) : Prop where
  remote : net.remote? ⟨c.stage.id, plug⟩ = some ⟨d.stage.id, d.socket⟩
  found : net.find? d.stage.id = some d.stage
  requestor : d.requestor = some ⟨c.stage.id, plug⟩

lemma passes_of_call? (h : call? net c.stage plug = some d) : Passes net plug c d := by
  rw [call?] at h
  split at h
  · rename_i remote _ hr
    obtain ⟨u, hu, rfl⟩ := Option.map_eq_some_iff.1 h
    have hid : u.id = remote.stage := Network.id_of_find? hu
    exact ⟨by rw [hr, hid], by rw [hid, hu], rfl⟩
  · cases h

lemma passes_of_next? (h : c.next? net = some d) :
    ∃ plug, inlet? net c.stage = some plug ∧ Passes net plug c d := by
  obtain ⟨plug, hp, hd⟩ := Option.bind_eq_some_iff.1 h
  exact ⟨plug, hp, passes_of_call? hd⟩

lemma Passes.pulls (h : Passes net plug c d) : Pulls net.remote? c.stage.id d.stage.id :=
  ⟨plug, _, h.remote, rfl⟩

namespace Answers

lemma found [Memory] (h : Answers c x calls r) (hc : x.1.network.find? c.stage.id = some c.stage) :
    ∀ d ∈ calls, x.1.network.find? d.stage.id = some d.stage := by
  induction h with
  | last h =>
    intro d hd
    rwa [List.mem_singleton.1 hd]
  | @pulls c d x calls r h _ ih =>
    rw [network_enter] at ih
    obtain ⟨plug, -, hp⟩ := passes_of_next? h
    intro e he
    rcases List.mem_cons.1 he with rfl | he
    · exact hc
    · exact ih hp.found e he

lemma nodup [Memory] (hn : x.1.network.Consistent) (h : Answers c x calls r) :
    (calls.map (·.stage.id)).Nodup := by
  refine hn.acyclic.nodup_of_isChain ((List.isChain_map _).2 (h.isChain.imp fun c d hcd => ?_))
  obtain ⟨plug, -, hp⟩ := passes_of_next? hcd
  exact hp.pulls

lemma length_le [Memory] (hn : x.1.network.Consistent) (h : Answers c x calls r)
    (hc : x.1.network.find? c.stage.id = some c.stage) :
    calls.length ≤ x.1.network.stages.length := by
  have hsub : calls.map (·.stage.id) ⊆ x.1.network.ids := by
    intro id hid
    obtain ⟨d, hd, rfl⟩ := List.mem_map.1 hid
    exact List.mem_map_of_mem (List.mem_of_find?_eq_some (h.found hc d hd))
  simpa [Network.ids] using ((h.nodup hn).subperm hsub).length_le

end Answers

lemma exists_answers [Memory] (hn : net.Consistent) {c : Call}
    (hc : net.find? c.stage.id = some c.stage) {x : Pipeline × Ticket} (hx : x.1.network = net) : ∃ calls r, Answers c x calls r := by
  have hid : c.stage.id ∈ net.ids := List.mem_map_of_mem (List.mem_of_find?_eq_some hc)
  -- Upstream by upstream: calls come to an end since no stage pulls from itself by way of others.
  refine hn.acyclic_living.swap.wellFounded.induction (C := fun id => ∀ c x, c.stage.id = id.1 →
    x.1.network = net → ∃ calls r, Answers c x calls r) ⟨c.stage.id, hid⟩ ?_ c x rfl hx
  rintro ⟨_, hid⟩ ih c x rfl hx
  cases hd : c.next? net with
  | none => exact ⟨_, _, .last (hx ▸ hd)⟩
  | some d =>
    obtain ⟨plug, -, hp⟩ := passes_of_next? hd
    obtain ⟨calls, r, h⟩ := ih ⟨d.stage.id, (hn.lives_pulls hp.pulls).2⟩ hp.pulls d (c.enter x)
      rfl ((network_enter c x).trans hx)
    exact ⟨_, _, .pulls (hx ▸ hd) h⟩

lemma answers_service [Memory] (hn : x.1.network.Consistent)
    (hc : x.1.network.find? c.stage.id = some c.stage) : ∃ calls, Answers c x calls
      (service x.1.network.stages.length c.stage c.socket c.requestor x) := by
  obtain ⟨calls, r, h⟩ := exists_answers hn hc rfl
  rw [h.service_eq (h.length_le hn hc)]
  exact ⟨calls, h⟩

structure Echoes (r r' : Outcome) : Prop where
  outcome : Work.outcome r' = Work.outcome r
  kept : Work.outcome r ≠ .ok .advanced → r' = r
  ticket : ∃ array, (Work.left r').2 = { (Work.left r).2 with array }

lemma Echoes.refl (r : Outcome) : Echoes r r := ⟨rfl, fun _ => rfl, _, rfl⟩

lemma echoes_passed (s : Stage) (r : Outcome) : Echoes r (passed s r) := by
  cases r with
  | error e x => exact .refl _
  | ok progress x =>
    cases progress with
    | completed => exact .refl _
    | unchanged => exact .refl _
    | advanced =>
      refine ⟨rfl, fun h => absurd rfl h, ?_⟩
      rw [passed]
      split
      · exact ⟨_, rfl⟩
      · exact ⟨_, rfl⟩

lemma Echoes.trans {r'' : Outcome} (h : Echoes r r') (h' : Echoes r' r'') : Echoes r r'' where
  outcome := h'.outcome.trans h.outcome
  kept hne := (h'.kept (h.outcome ▸ hne)).trans (h.kept hne)
  ticket := by
    obtain ⟨array, ha⟩ := h'.ticket
    obtain ⟨before, hb⟩ := h.ticket
    exact ⟨array, by rw [ha, hb]⟩

section Builtin

lemma next?_of_root (hf : c.stage.filter = .imageRoot) : c.next? net = none := by
  rw [Call.next?, inlet?, hf]
  rfl

lemma alone_of_root [Memory] (hf : c.stage.filter = .imageRoot) :
    c.alone x = serve c.stage c.socket x := by
  rw [Call.alone, inlet?, hf]
  rfl

lemma plug_of_forwards (hf : s.filter.Forwards) : ∃ k, s.plug 0 = .ok k := by
  rw [Stage.plug]
  rcases hf with hf | hf
  · rw [hf]
    exact ⟨_, rfl⟩
  · rw [hf]
    exact ⟨_, rfl⟩

lemma call?_of_none (hr : net.remote? ⟨s.id, plug⟩ = none) : call? net s plug = none := by
  rw [call?, hr]
  cases s.plug plug <;> rfl

lemma inlet?_output (hf : s.filter = .imageOutput) :
    inlet? net s = if net.isReady s then some 0 else none := by
  rw [inlet?, hf]
  rfl

lemma next?_of_forwards (hf : c.stage.filter.Forwards) : c.next? net = call? net c.stage 0 := by
  rcases hf with hf | hf
  · rw [Call.next?, inlet?, hf]
    rfl
  · rw [Call.next?, inlet?_output hf, Network.isReady_output hf]
    cases hr : net.remote? ⟨c.stage.id, 0⟩ with
    | none => exact (call?_of_none hr).symm
    | some remote => rfl

lemma alone_of_forwards [Memory] (hf : c.stage.filter.Forwards) : c.alone x = .ok .unchanged x := by
  obtain ⟨k, hk⟩ := plug_of_forwards hf
  have hbare : bare c.stage 0 x = .ok .unchanged x := by rw [bare, hk]
  rcases hf with hf | hf
  · rw [Call.alone, inlet?, hf]
    exact hbare
  · rw [Call.alone, inlet?_output hf]
    by_cases hready : x.1.network.isReady c.stage = true
    · rw [if_pos hready]
      exact hbare
    · rw [if_neg hready, hf]
      rfl

lemma call?_of_forwards (hf : s.filter.Forwards) {remote : Contact}
    (hr : net.remote? ⟨s.id, 0⟩ = some remote) :
    call? net s 0 = (net.find? remote.stage).map (⟨·, remote.index, some ⟨s.id, 0⟩⟩) := by
  obtain ⟨k, hk⟩ := plug_of_forwards hf
  rw [call?, hk, hr]

structure Ends [Memory] (x : Pipeline × Ticket) (last : Call) (r : Outcome) : Prop where
  root : last.stage.filter = .imageRoot → Echoes (serve last.stage last.socket x) r
  loose : last.stage.filter ≠ .imageRoot →
    x.1.network.remote? ⟨last.stage.id, 0⟩ = none ∧ r = .ok .unchanged x

lemma Ends.echo [Memory] {last : Call} (h : Ends x last r) (he : Echoes r r') : Ends x last r' where
  root hroot := (h.root hroot).trans he
  loose hroot := by
    obtain ⟨hr, rfl⟩ := h.loose hroot
    exact ⟨hr, he.kept fun h => by cases h⟩

variable (hb : c.stage.filter.IsBuiltin)

include hb

lemma enter_of_builtin : c.enter x = x := by
  refine enter_of_role fun action h => ?_
  rcases hb with hf | hf | hf <;> rw [hf] at h <;> cases h

lemma passes_of_builtin (h : c.next? net = some d) : Passes net 0 c d := by
  rcases hb with hf | hf
  · rw [next?_of_root hf] at h
    cases h
  · rw [next?_of_forwards hf] at h
    exact passes_of_call? h

lemma ends_of_next? [Memory] (hn : x.1.network.Consistent) (h : c.next? x.1.network = none) :
    Ends x c (c.alone x) where
  root hf := alone_of_root hf ▸ .refl _
  loose hroot := by
    have hf := hb.resolve_left hroot
    refine ⟨?_, alone_of_forwards hf⟩
    by_contra hne
    obtain ⟨remote, hr⟩ := Option.ne_none_iff_exists'.1 hne
    obtain ⟨u, hu⟩ := Option.isSome_iff_exists.1
      (Network.find?_isSome.2 (hn.valid _ _ hr).2.lives)
    rw [next?_of_forwards hf, call?_of_forwards hf hr, hu] at h
    cases h

end Builtin

lemma Answers.ends [Memory] (hb : ∀ s ∈ x.1.network.stages, s.filter.IsBuiltin)
    (hn : x.1.network.Consistent) (hc : x.1.network.find? c.stage.id = some c.stage)
    (h : Answers c x calls r) : ∃ last, calls.getLast? = some last ∧ Ends x last r := by
  induction h with
  | @last c x h =>
    have hb := hb c.stage (List.mem_of_find?_eq_some hc)
    refine ⟨c, rfl, ?_⟩
    rw [enter_of_builtin hb]
    exact ends_of_next? hb hn h
  | @pulls c d x calls r h _ ih =>
    have hbuiltin := hb c.stage (List.mem_of_find?_eq_some hc)
    rw [enter_of_builtin hbuiltin] at ih
    obtain ⟨last, hlast, hends⟩ := ih hb hn (passes_of_builtin hbuiltin h).found
    refine ⟨last, ?_, hends.echo (echoes_passed c.stage r)⟩
    rw [List.getLast?_cons, hlast]
    rfl

structure Ascent (net : Network) (c : Call) (calls : List Call) (last : Call) : Prop where
  first : calls.head? = some c
  final : calls.getLast? = some last
  linked : calls.IsChain (Passes net 0)
  distinct : (calls.map (·.stage.id)).Nodup
  bounded : calls.length ≤ net.stages.length

/-- Running a stage comes to an end: it takes one chain of calls, to stages of which none comes
twice, and the answer of the last is that of all. -/
theorem run_ascends [Memory] (edits : List Edit) (p : Pipeline) (hp : p.network = Network.run edits)
    (hb : ∀ s ∈ p.network.stages, s.filter.IsBuiltin) (s : Stage)
    (hs : p.network.find? s.id = some s) (socket : ℕ) (t : Ticket) :
    ∃ calls last,
      (∀ calls' r, Answers ⟨s, socket, none⟩ (p, t) calls' r ↔
        calls' = calls ∧ r = run s socket (p, t)) ∧
      Ascent p.network ⟨s, socket, none⟩ calls last ∧ Ends (p, t) last (run s socket (p, t)) := by
  have hn : p.network.Consistent := hp ▸ Network.consistent_run edits
  obtain ⟨calls, h⟩ := answers_service (x := (p, t)) (c := ⟨s, socket, none⟩) hn hs
  obtain ⟨last, hlast, hends⟩ := h.ends hb hn hs
  refine ⟨calls, last, fun calls' r => ⟨fun h' => h.unique h', ?_⟩,
    ⟨h.head?, hlast, ?_, h.nodup hn, h.length_le hn hs⟩, hends⟩
  · rintro ⟨rfl, rfl⟩
    exact h
  · refine List.IsChain.imp_of_mem_imp (fun c d hc _ hcd => ?_) h.isChain
    exact passes_of_builtin (hb c.stage (List.mem_of_find?_eq_some (h.found hs c hc))) hcd

end Pull

namespace Pipeline

open Pull

def amplifier : Pipeline := { network := counter (imageStage (some pair)) doubling }

section Ample

attribute [local instance] ample

theorem run_ascends_counter : ∃ edits, amplifier.network = Network.run edits ∧
    (∀ s ∈ amplifier.network.stages, s.filter.IsBuiltin) ∧
    amplifier.network.find? outputStage.id = some outputStage ∧
    ∃ last, Ascent amplifier.network ⟨outputStage, 0, none⟩
        [⟨outputStage, 0, none⟩, ⟨gainStage ⟨"icc.transform"⟩ doubling, 0, some ⟨2, 0⟩⟩,
          ⟨imageStage (some pair), 0, some ⟨1, 0⟩⟩] last ∧
      Ends (amplifier, .ofRegion none 1) last
        (Pull.run outputStage 0 (amplifier, .ofRegion none 1)) := by
  obtain ⟨edits, he⟩ := (reachable_counter ∅ pair doubling).exists_run
  have hb : ∀ s ∈ amplifier.network.stages, s.filter.IsBuiltin := by
    intro s hs
    simp only [amplifier, counter, List.mem_cons, List.not_mem_nil, or_false] at hs
    rcases hs with rfl | rfl | rfl
    · exact .inl rfl
    · exact .inr (.inl rfl)
    · exact .inr (.inr rfl)
  obtain ⟨calls, last, hcalls, hascent, hends⟩ :=
    run_ascends edits amplifier he hb outputStage rfl 0 (.ofRegion none 1)
  obtain ⟨rfl, -⟩ := (hcalls _ _).1 (.pulls rfl (.pulls rfl (.last rfl)))
  exact ⟨edits, he, hb, rfl, last, hascent, hends⟩

end Ample

end Pipeline

end ColourPipeline
