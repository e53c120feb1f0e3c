import ColourPipeline.Proofs.Cache.Lending
import ColourPipeline.Proofs.Graph.Freed
import ColourPipeline.Proofs.Pull.Run

/-! The runs of stages that a request comes to, and what every one of them keeps. -/

namespace ColourPipeline

structure Run where
  stage : Stage
  drew : Option SlotId
  result : EStateM.Result Stop (Pipeline × Ticket) Progress

namespace Run

def delivered? (r : Run) : Option Ticket :=
  match r.result with
  | .ok .advanced (_, t) => some t
  | _ => none

def Idle (r : Run) : Prop :=
  r.drew = none ∧ (r.stage.filter.role = .transform → r.delivered? = none)

end Run

namespace Pull

def inlet? (net : Network) (s : Stage) : Option ℕ :=
  match s.filter.role with
  | .source => none
  | .output => if net.isReady s then some 0 else none
  | .transform => some 0
  | .host (.pull plug) => some plug
  | .host _ => none

def entered (s : Stage) (socket : ℕ) (requestor : Option Contact) (p : Pipeline) : Pipeline :=
  match s.filter.role with
  | .host _ => p.report (.ran s.id socket requestor)
  | _ => p

def drawn? (s : Stage) (pulled : EStateM.Result Stop (Pipeline × Ticket) Progress) :
    Option SlotId :=
  if s.filter.role = .transform then
    match pulled with
    | .ok .advanced (p, _) => some (p.cache.lookup s.gainKey).1
    | _ => none
  else none

def runsThrough (runs : Stage → ℕ → Option Contact → Pipeline × Ticket → List Run) (s : Stage)
    (plug : ℕ) (x : Pipeline × Ticket) : List Run :=
  match s.plug plug, x.1.network.remote? ⟨s.id, plug⟩ with
  | .ok _, some socket =>
    match x.1.network.find? socket.stage with
    | some supplier => runs supplier socket.index (some ⟨s.id, plug⟩) x
    | none => []
  | _, _ => []

def runsBelow (runs : Stage → ℕ → Option Contact → Pipeline × Ticket → List Run) (s : Stage)
    (socket : ℕ) (requestor : Option Contact) (x : Pipeline × Ticket) : List Run :=
  match inlet? x.1.network s with
  | some plug => runsThrough runs s plug (entered s socket requestor x.1, x.2)
  | none => []

def runs [Memory] : ℕ → Stage → ℕ → Option Contact → Pipeline × Ticket → List Run
  | 0, _, _, _, _ => []
  | depth + 1, s, socket, requestor, x =>
    runsBelow (runs depth) s socket requestor x ++
      [⟨s, drawn? s (through (service depth) s 0 x), service (depth + 1) s socket requestor x⟩]

def requested [Memory] (r : Request) (x : Pipeline × Ticket) : List Run :=
  let depth := x.1.network.stages.length
  match r with
  | .socket c =>
    match x.1.network.find? c.stage with
    | some s => runs depth s c.index none x
    | none => []
  | .plug c =>
    match x.1.network.find? c.stage with
    | some s => runsThrough (runs depth) s c.index x
    | none => []

def applied (s : Stage) (x : Pipeline × Ticket) : Pipeline × Ticket :=
  let array := (x.1.drawGain s).1.apply x.2.array
  ((x.1.drawGain s).2.countBatch s x.2.workspace array.size, { x.2 with array })

def gainRun (s : Stage) (x : Pipeline × Ticket) : Run :=
  ⟨s, some (x.1.cache.lookup s.gainKey).1, .ok .advanced (applied s x)⟩

variable {α : Type} {P : List Run → Pipeline → Prop} {net : Network}

def Records (P : List Run → Pipeline → Prop) (rs : Pipeline × Ticket → List Run) (m : Pull α) :
    Prop :=
  ∀ past p t, P past p → P (past ++ rs (p, t)) (Work.left (m (p, t))).1

lemma of_no_runs {past : List Run} {p : Pipeline} (h : P past p) : P (past ++ []) p := by
  rwa [List.append_nil]

lemma left_serve [Memory] (s : Stage) (socket : ℕ) (p : Pipeline) (t : Ticket) :
    (Work.left (serve s socket (p, t))).1 = p :=
  keeps_serve (P := (· = p)) s socket p t rfl

lemma through_eq (run : Stage → ℕ → Option Contact → Pull Progress) (s : Stage) (plug : ℕ)
    (x : Pipeline × Ticket) : through run s plug x =
      match s.plug plug with
      | .error e => .error (.error e) x
      | .ok _ =>
        match x.1.network.remote? ⟨s.id, plug⟩ with
        | none => .ok .unchanged x
        | some socket =>
          match x.1.network.find? socket.stage with
          | some supplier => run supplier socket.index (some ⟨s.id, plug⟩) x
          | none => .ok .unchanged x := by
  simp only [through, bind, EStateM.bind, Work.check, Work.lift, Except.mapError, pipeline, get,
    getThe, MonadStateOf.get, EStateM.get, pure, EStateM.pure]
  cases s.plug plug with
  | error e => rfl
  | ok c =>
    dsimp only
    cases x.1.network.remote? ⟨s.id, plug⟩ with
    | none => rfl
    | some socket =>
      dsimp only
      cases x.1.network.find? socket.stage <;> rfl

section Roles

variable {s : Stage} (depth socket : ℕ) (requestor : Option Contact) (x : Pipeline × Ticket)

lemma service_source [Memory] (hrole : s.filter.role = .source) :
    service (depth + 1) s socket requestor x = serve s socket x := by
  rw [service, hrole]

lemma service_output [Memory] (hrole : s.filter.role = .output) :
    service (depth + 1) s socket requestor x =
      if x.1.network.isReady s then through (service depth) s 0 x else .ok .unchanged x := by
  rw [service, hrole]
  show (if x.1.network.isReady s then through (service depth) s 0
    else return .unchanged : Pull Progress) x = _
  split <;> rfl

lemma service_host [Memory] (action : HostAction) : s.filter.role = .host action →
    service (depth + 1) s socket requestor x =
      (match action with
        | .pull plug => through (service depth) s plug
        | .serve => serve s socket
        | .answer progress => return progress
        | .refuse text => throw (.error (.codec (.reported text))) : Pull Progress)
        (x.1.report (.ran s.id socket requestor), x.2) := by
  intro hrole
  rw [service, hrole]
  rfl

lemma service_transform [Memory] (hrole : s.filter.role = .transform) :
    service (depth + 1) s socket requestor x =
      match through (service depth) s 0 x with
      | .ok .advanced y => .ok .advanced (applied s y)
      | pulled => pulled := by
  rw [service, hrole]
  simp only [bind, EStateM.bind]
  cases through (service depth) s 0 x with
  | error e y => rfl
  | ok progress y => cases progress <;> rfl

end Roles

lemma answer_socket [Memory] (c : Contact) (x : Pipeline × Ticket) : answer (.socket c) x =
    match x.1.network.find? c.stage with
    | some s => service x.1.network.stages.length s c.index none x
    | none => .ok .unchanged x := by
  show (match x.1.network.find? c.stage with
    | some s => run s c.index
    | none => return .unchanged : Pull Progress) x = _
  cases x.1.network.find? c.stage <;> rfl

lemma answer_plug [Memory] (c : Contact) (x : Pipeline × Ticket) : answer (.plug c) x =
    match x.1.network.find? c.stage with
    | some s => through (service x.1.network.stages.length) s c.index x
    | none => .ok .unchanged x := by
  show (match x.1.network.find? c.stage with
    | some s => pull s c.index
    | none => return .unchanged : Pull Progress) x = _
  cases x.1.network.find? c.stage <;> rfl

section Service

variable (hnet : ∀ past p, P past p → p.network = net)

include hnet

lemma records_through {runs : Stage → ℕ → Option Contact → Pipeline × Ticket → List Run}
    {run : Stage → ℕ → Option Contact → Pull Progress} {s : Stage} {plug : ℕ}
    (hr : ∀ supplier, net.find? supplier.id = some supplier →
      ∀ i c, Records P (runs supplier i c) (run supplier i c)) :
    Records P (runsThrough runs s plug) (through run s plug) := by
  intro past p t hp
  obtain rfl := hnet past p hp
  rw [through_eq, runsThrough]
  cases s.plug plug with
  | error e => exact of_no_runs hp
  | ok c =>
    dsimp only
    cases p.network.remote? ⟨s.id, plug⟩ with
    | none => exact of_no_runs hp
    | some socket =>
      dsimp only
      cases hf : p.network.find? socket.stage with
      | none => exact of_no_runs hp
      | some supplier =>
        have hid : supplier.id = socket.stage := Network.id_of_find? hf
        exact hr supplier (hid.symm ▸ hf) _ _ past p t hp

variable (hlog : ∀ past p e, P past p → P past (p.report e))

include hlog

lemma records_below [Memory] {depth : ℕ} {s : Stage} {socket : ℕ} {requestor : Option Contact}
    (hrole : s.filter.role ≠ .transform)
    (ht : ∀ plug, Records P (runsThrough (runs depth) s plug) (through (service depth) s plug)) :
    Records P (runsBelow (runs depth) s socket requestor)
      (service (depth + 1) s socket requestor) := by
  intro past p t hp
  obtain rfl := hnet past p hp
  rw [runsBelow, inlet?, entered]
  cases hr : s.filter.role with
  | source =>
    rw [service_source _ _ _ _ hr, left_serve]
    exact of_no_runs hp
  | output =>
    rw [service_output _ _ _ _ hr]
    by_cases hready : p.network.isReady s = true
    · rw [if_pos hready, if_pos hready]
      exact ht 0 past p t hp
    · rw [if_neg hready, if_neg hready]
      exact of_no_runs hp
  | transform => exact absurd hr hrole
  | host action =>
    have hp' := hlog past p (.ran s.id socket requestor) hp
    rw [service_host _ _ _ _ _ hr]
    cases action with
    | pull plug => exact ht plug past _ t hp'
    | serve =>
      dsimp only
      rw [left_serve]
      exact of_no_runs hp'
    | answer progress => exact of_no_runs hp'
    | refuse text => exact of_no_runs hp'

variable (hidle : ∀ past p r, P past p → net.find? r.stage.id = some r.stage → r.Idle →
    P (past ++ [r]) p)
  (hgain : ∀ past p t s, P past p → net.find? s.id = some s → s.filter.role = .transform →
    P (past ++ [gainRun s (p, t)]) (applied s (p, t)).1)

include hidle hgain

theorem records_service [Memory] (depth : ℕ) (s : Stage) (socket : ℕ) (requestor : Option Contact)
    (hs : net.find? s.id = some s) :
    Records P (runs depth s socket requestor) (service depth s socket requestor) := by
  -- The runs of the stages below come first, and what they leave is what the stage finds.
  induction depth generalizing s socket requestor with
  | zero =>
    intro past p t hp
    exact of_no_runs hp
  | succ depth ih =>
    have ht (plug : ℕ) :
        Records P (runsThrough (runs depth) s plug) (through (service depth) s plug) :=
      records_through hnet fun supplier hsup i c => ih supplier i c hsup
    intro past p t hp
    obtain rfl := hnet past p hp
    rw [runs, ← List.append_assoc]
    by_cases hrole : s.filter.role = .transform
    · have hp' := ht 0 past p t hp
      have hb : runsBelow (runs depth) s socket requestor (p, t) =
          runsThrough (runs depth) s 0 (p, t) := by
        rw [runsBelow, inlet?, entered, hrole]
      unfold drawn?
      rw [hb, service_transform _ _ _ _ hrole, if_pos hrole]
      generalize through (service depth) s 0 (p, t) = pulled at hp' ⊢
      cases pulled with
      | error e y => exact hidle _ _ _ hp' hs ⟨rfl, fun _ => rfl⟩
      | ok progress y =>
        cases progress with
        | advanced => exact hgain _ y.1 y.2 s hp' hs hrole
        | completed => exact hidle _ _ _ hp' hs ⟨rfl, fun _ => rfl⟩
        | unchanged => exact hidle _ _ _ hp' hs ⟨rfl, fun _ => rfl⟩
    · exact hidle _ _ _ (records_below hnet hlog hrole ht past p t hp) hs
        ⟨if_neg hrole, fun h => absurd h hrole⟩

theorem records_answer [Memory] (r : Request) : Records P (requested r) (answer r) := by
  intro past p t hp
  obtain rfl := hnet past p hp
  have hservice := records_service hnet hlog hidle hgain p.network.stages.length
  cases r with
  | socket c =>
    rw [answer_socket, requested]
    dsimp only
    cases hf : p.network.find? c.stage with
    | none => exact of_no_runs hp
    | some s =>
      have hid : s.id = c.stage := Network.id_of_find? hf
      exact hservice s c.index none (hid.symm ▸ hf) past p t hp
  | plug c =>
    rw [answer_plug, requested]
    dsimp only
    cases p.network.find? c.stage with
    | none => exact of_no_runs hp
    | some s =>
      exact records_through hnet (fun supplier hs i c => hservice supplier i c hs) past p t hp

end Service

theorem records_request [Memory] {past : List Run} {p : Pipeline} (h : P past p)
    (hc : p.network.Consistent) (hlog : ∀ past p e, P past p → P past (p.report e))
    (hidle : ∀ past p r, P past p → p.network.Consistent →
      p.network.find? r.stage.id = some r.stage → r.Idle → P (past ++ [r]) p)
    (hgain : ∀ past p t s, P past p → p.network.Consistent → p.network.find? s.id = some s →
      s.filter.role = .transform → P (past ++ [gainRun s (p, t)]) (applied s (p, t)).1)
    (r : Request) (t : Ticket) :
    P (past ++ requested r (p, t)) (Work.left (answer r (p, t))).1 := by
  have hr := records_answer (P := fun past p' => p'.network = p.network ∧ P past p')
    (fun _ _ h => h.1) (fun past p' e h => ⟨h.1, hlog past p' e h.2⟩)
    (fun past p' r h hr hi => ⟨h.1, hidle past p' r h.2 (h.1 ▸ hc) (h.1 ▸ hr) hi⟩)
    (fun past p' t s h hs hrole =>
      ⟨(Pipeline.drawGain_network s p').trans h.1,
        hgain past p' t s h.2 (h.1 ▸ hc) (h.1 ▸ hs) hrole⟩) r
  exact (hr past p t ⟨rfl, h⟩).2

end Pull

inductive Turn where
  | edit (e : Edit)
  | request (m : Memory) (r : Request) (t : Ticket)
  | deal (d : Dealing)

/-- A pipeline with the handles that others have on slots of its cache, and the runs there were. -/
structure Workshop where
  pipeline : Pipeline := {}
  callers : List SlotId := []
  runs : List Run := []

namespace Workshop

def step (w : Workshop) : Turn → Workshop
  | .edit e => { w with pipeline := w.pipeline.edit e }
  | .request _ r t =>
    { w with
      pipeline := (Work.left (Pull.answer r (w.pipeline, t))).1
      runs := w.runs ++ Pull.requested r (w.pipeline, t) }
  | .deal d =>
    let l := Lending.step ⟨w.pipeline.cache, w.callers⟩ d
    { w with pipeline := w.pipeline.onCache fun _ => l.cache, callers := l.callers }

def run (turns : List Turn) : Workshop := turns.foldl step {}

lemma run_concat (turns : List Turn) (a : Turn) : run (turns ++ [a]) = (run turns).step a := by
  rw [run, List.foldl_append]
  rfl

end Workshop

namespace Pipeline

variable {p : Pipeline}

lemma afterRequest_eq (m : EStateM.Result Stop (Pipeline × Ticket) Progress) :
    afterRequest m = (Work.left m).1 := by
  cases m <;> rfl

lemma edit_cases (h : p.network.Consistent) (e : Edit) :
    (∃ r, p.network.Parts r ∧ p.edit e = p.settle r) ∨
      ∃ q f, p.edit e = { p with network := (p.network.create q f).2 } := by
  have hsame : p.network.Parts ([], p.network) ∧ p = p.settle ([], p.network) :=
    ⟨Network.parts_self _, rfl⟩
  cases e with
  | create q =>
    show (∃ r, _ ∧ p.orStay ((p.create q).map (·.2)) = _) ∨ ∃ q' f, p.orStay _ = _
    rw [Pipeline.create]
    cases q.filter with
    | ok f => exact .inr ⟨q, f, rfl⟩
    | error e => exact .inl ⟨_, hsame⟩
  | hold id => exact .inl ⟨_, Network.parts_hold id, rfl⟩
  | drop id => exact .inl ⟨_, Network.parts_drop h id, rfl⟩
  | connect plug socket =>
    left
    show ∃ r, _ ∧ p.orStay (p.connect plug socket) = _
    rw [Pipeline.connect]
    cases hc : Network.connect plug socket p.network with
    | ok freed rest => exact ⟨_, Network.parts_connect h hc, rfl⟩
    | error e net => exact ⟨_, hsame⟩
  | disconnect plug => exact .inl ⟨_, Network.parts_disconnect h plug, rfl⟩
  | setOptions id o =>
    exact .inl ⟨_, Network.Parts.of_update (f := fun s => { s with options := o })
      (fun _ => rfl) (Network.parts_self _), rfl⟩
  | setImage socket i =>
    left
    show ∃ r, _ ∧ p.orStay (p.setImage socket i) = _
    rw [Pipeline.setImage]
    cases p.network.socket socket with
    | ok c =>
      exact ⟨_, Network.Parts.of_update (f := (·.withImage socket.index i)) (fun _ => rfl)
        (Network.parts_self _), rfl⟩
    | error e => exact ⟨_, hsame⟩
  | convert input output => exact .inl ⟨_, Network.parts_holdAll _, rfl⟩
  | setInput c id =>
    exact .inl ⟨_, (Network.parts_hold id).append (Network.parts_dropAll (h.hold id) _), rfl⟩
  | setOutput c id =>
    exact .inl ⟨_, (Network.parts_hold id).append (Network.parts_dropAll (h.hold id) _), rfl⟩
  | release c =>
    left
    show ∃ r, _ ∧ p.settle (c.release p.network).2 = _
    refine ⟨_, ?_, rfl⟩
    rw [Conversion.release]
    split
    · exact Network.parts_dropAll h _
    · exact hsame.1

end Pipeline

namespace Workshop

lemma network_request (w : Workshop) (m : Memory) (r : Request) (t : Ticket) :
    (w.step (.request m r t)).pipeline.network = w.pipeline.network := by
  rw [step, ← Pipeline.afterRequest_eq]
  exact Pipeline.network_answer r w.pipeline t

lemma consistent_run (turns : List Turn) : (run turns).pipeline.network.Consistent := by
  induction turns using List.reverseRecOn with
  | nil => exact Network.consistent_empty
  | append_singleton turns a ih =>
    rw [run_concat]
    cases a with
    | edit e =>
      rcases Pipeline.edit_network (run turns).pipeline e with hn | hn
      · exact hn.symm ▸ ih.edit e
      · exact hn.symm ▸ ih
    | request m r t =>
      rw [network_request]
      exact ih
    | deal d => exact ih

end Workshop

end ColourPipeline
