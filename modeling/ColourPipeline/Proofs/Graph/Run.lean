import ColourPipeline.Proofs.Graph.Liveness
import ColourPipeline.Provider.Builtin

namespace ColourPipeline

open Relation

inductive Edit where
  | create (q : Provider)
  | hold (id : StageId)
  | drop (id : StageId)
  | connect (plug socket : Contact)
  | disconnect (plug : Contact)
  | setOptions (id : StageId) (o : OptionSet)
  | setImage (socket : Contact) (i : Image)
  | convert (input output : Option StageId)
  | setInput (c : Conversion) (id : StageId)
  | setOutput (c : Conversion) (id : StageId)
  | release (c : Conversion)

namespace Network

variable {net net' : Network} {plug socket : Contact}

def left {α : Type} : EStateM.Result PipelineError Network α → Network
  | .ok _ net => net
  | .error _ net => net

def edit (net : Network) : Edit → Network
  | .create q =>
    match q.filter with
    | .ok f => (net.create q f).2
    | .error _ => net
  | .hold id => net.hold id
  | .drop id => (net.drop id).2
  | .connect plug socket => left (Network.connect plug socket net)
  | .disconnect plug => (net.disconnect plug).2
  | .setOptions id o => net.setOptions id o
  | .setImage socket i => net.setImage socket i
  | .convert input output => (Conversion.between input output net).2
  | .setInput c id => (c.setInput id net).2.2
  | .setOutput c id => (c.setOutput id net).2.2
  | .release c => (c.release net).2.2

def run (edits : List Edit) : Network := edits.foldl edit empty

lemma edit_create {q : Provider} {f : Filter} (h : q.filter = .ok f) :
    net.edit (.create q) = (net.create q f).2 := by
  rw [edit, h]

lemma Consistent.collect (h : net.Consistent) (ids : List StageId) :
    (net.collect ids).2.Consistent := by
  obtain ⟨keep, hk, he⟩ := collect_spec h ids
  rw [he]
  exact h.restrict hk.closed

lemma Consistent.hold (h : net.Consistent) (id : StageId) : (net.hold id).Consistent :=
  Consistent.update (f := fun s => { s with handles := s.handles + 1 }) (fun _ => ⟨rfl, rfl⟩) h id

lemma Consistent.holdAll (h : net.Consistent) (ids : List StageId) :
    (ids.foldl Network.hold net).Consistent := by
  induction ids generalizing net with
  | nil => exact h
  | cons id ids ih => exact ih (h.hold id)

lemma Consistent.drop (h : net.Consistent) (id : StageId) : (net.drop id).2.Consistent :=
  (Consistent.update (f := fun s => { s with handles := s.handles - 1 }) (fun _ => ⟨rfl, rfl⟩) h
    id).collect [id]

lemma Consistent.dropAll (h : net.Consistent) (ids : List StageId) :
    (net.dropAll ids).2.Consistent := by
  induction ids generalizing net with
  | nil => exact h
  | cons id ids ih => exact ih (h.drop id)

lemma Consistent.letGo (h : net.Consistent) (o : Option Contact) : (net.letGo o).2.Consistent := by
  cases o with
  | none => exact h
  | some s => exact h.collect [s.stage]

lemma connect_eq (net : Network) (plug socket : Contact) : Network.connect plug socket net =
    match net.plug plug with
    | .error e => .error e net
    | .ok p =>
      match net.socket socket with
      | .error e => .error e net
      | .ok s =>
        match p.checkCompatible s with
        | .error e => .error e net
        | .ok _ =>
          if net.closesCycle plug socket then .error (.cycleDetected plug.stage socket.stage) net
          else .ok ((net.attach plug socket).letGo (net.remote? plug)).1
            ((net.attach plug socket).letGo (net.remote? plug)).2 := by
  simp only [Network.connect, bind, EStateM.bind, get, getThe, MonadStateOf.get, EStateM.get,
    Work.lift]
  cases net.plug plug with
  | error e => rfl
  | ok p =>
    cases net.socket socket with
    | error e => rfl
    | ok s =>
      dsimp only
      cases p.checkCompatible s with
      | error e => rfl
      | ok u =>
        dsimp only
        split <;> rfl

lemma connect_of_compatible {p s : Connector} (hp : net.plug plug = .ok p)
    (hs : net.socket socket = .ok s) (hc : p.checkCompatible s = .ok ()) :
    Network.connect plug socket net =
      if net.closesCycle plug socket then .error (.cycleDetected plug.stage socket.stage) net
      else .ok ((net.attach plug socket).letGo (net.remote? plug)).1
        ((net.attach plug socket).letGo (net.remote? plug)).2 := by
  rw [connect_eq, hp, hs]
  dsimp only
  rw [hc]

lemma connect_cases (net : Network) (plug socket : Contact) :
    (∃ e, Network.connect plug socket net = .error e net) ∨
      net.HasPlug plug ∧ net.HasSocket socket ∧ net.closesCycle plug socket = false ∧
        Network.connect plug socket net =
          .ok ((net.attach plug socket).letGo (net.remote? plug)).1
            ((net.attach plug socket).letGo (net.remote? plug)).2 := by
  rw [connect_eq]
  cases hp : net.plug plug with
  | error e => exact .inl ⟨e, rfl⟩
  | ok p =>
    cases hs : net.socket socket with
    | error e => exact .inl ⟨e, rfl⟩
    | ok s =>
      dsimp only
      cases p.checkCompatible s with
      | error e => exact .inl ⟨e, rfl⟩
      | ok u =>
        cases hc : net.closesCycle plug socket with
        | true => exact .inl ⟨_, rfl⟩
        | false => exact .inr ⟨hasPlug_of_plug hp, hasSocket_of_socket hs, rfl, rfl⟩

lemma Consistent.attach_of_apart (h : net.Consistent) (hp : net.HasPlug plug)
    (hs : net.HasSocket socket) (hc : net.closesCycle plug socket = false) :
    (net.attach plug socket).Consistent := by
  refine h.attach hp hs ?_
  rw [← closesCycle_iff h, hc]
  simp

lemma Consistent.connect (h : net.Consistent) (plug socket : Contact) :
    (left (Network.connect plug socket net)).Consistent := by
  rcases connect_cases net plug socket with ⟨e, he⟩ | ⟨hp, hs, hc, he⟩
  · rw [he]
    exact h
  · rw [he]
    exact (h.attach_of_apart hp hs hc).letGo _

lemma Consistent.edit (h : net.Consistent) (e : Edit) : (net.edit e).Consistent := by
  cases e with
  | create q =>
    cases hf : q.filter with
    | ok f =>
      rw [edit_create hf]
      exact h.create q f
    | error e => rwa [Network.edit, hf]
  | hold id => exact h.hold id
  | drop id => exact h.drop id
  | connect plug socket => exact h.connect plug socket
  | disconnect plug => exact (h.cut plug).letGo _
  | setOptions id o =>
    exact Consistent.update (f := fun s => { s with options := o }) (fun _ => ⟨rfl, rfl⟩) h id
  | setImage socket i =>
    exact Consistent.update (f := (·.withImage socket.index i)) (fun _ => ⟨rfl, rfl⟩) h _
  | convert input output => exact h.holdAll _
  | setInput c id => exact (h.hold id).dropAll _
  | setOutput c id => exact (h.hold id).dropAll _
  | release c =>
    show (c.release net).2.2.Consistent
    rw [Conversion.release]
    split
    · exact h.dropAll _
    · exact h

theorem consistent_run (edits : List Edit) : (run edits).Consistent := by
  induction edits using List.reverseRecOn with
  | nil => exact consistent_empty
  | append_singleton edits e ih =>
    rw [run, List.foldl_append]
    exact ih.edit e

/-- No stage ever pulls from itself, over whatever others, and a connection is refused for that
exactly where it would come to pass. -/
theorem acyclic_run (edits : List Edit) :
    Acyclic (Pulls (run edits).remote?) ∧
      ∀ plug socket p s, (run edits).plug plug = .ok p → (run edits).socket socket = .ok s →
        p.checkCompatible s = .ok () →
        (Network.connect plug socket (run edits) =
            .error (.cycleDetected plug.stage socket.stage) (run edits) ↔
          ¬ Acyclic (Pulls (Function.update (run edits).remote? plug (some socket)))) ∧
        ∀ e net, Network.connect plug socket (run edits) = .error e net →
          e = .cycleDetected plug.stage socket.stage := by
  have h := consistent_run edits
  refine ⟨h.acyclic, fun plug socket p s hp hs hc => ?_⟩
  rw [connect_of_compatible hp hs hc, acyclic_update_some h.acyclic, not_not,
    ← closesCycle_iff h]
  cases hcyc : (run edits).closesCycle plug socket with
  | true =>
    refine ⟨by simp, fun e net he => ?_⟩
    injection he with he
    exact he.symm
  | false =>
    constructor
    · simp
    · intro e net he
      cases he

theorem acyclic_run_loop :
    Network.connect ⟨0, 0⟩ ⟨0, 0⟩
        (run [.create ⟨0, .parse "icc.transform", ⟨0, 1, 0⟩, .filter .gain⟩]) =
      .error (.cycleDetected 0 0)
        (run [.create ⟨0, .parse "icc.transform", ⟨0, 1, 0⟩, .filter .gain⟩]) := by
  have hc : (Connector.data "in").checkCompatible (.data "out") = .ok () := by decide
  refine (((acyclic_run _).2 ⟨0, 0⟩ ⟨0, 0⟩ _ _ rfl rfl hc).1).2 fun h => ?_
  exact h 0 (.single ⟨0, ⟨0, 0⟩, Function.update_self _ _ _, rfl⟩)

structure Moved (net : Network) (plug socket : Contact) (net' : Network) : Prop where
  remote : net'.remote? plug = some socket
  others : ∀ p, p ≠ plug → net'.lives p.stage = true → net'.remote? p = net.remote? p
  lists : ∀ s, net'.lives s.stage = true → net'.attached s =
    ((net.attached s).filter fun q => decide (q ≠ plug) && net'.lives q.stage) ++
      if s = socket then [plug] else []
  ends : net'.lives plug.stage = true ∧ net'.lives socket.stage = true
  lived : ∀ id, net'.lives id = true → net.lives id = true
  held : ∀ id s, net.find? id = some s → 0 < s.handles → net'.lives id = true

lemma find?_cut {id : StageId} : (net.cut plug).find? id = net.find? id := by
  rw [cut]
  split <;> rfl

lemma letGo_spec (h : net.Consistent) (o : Option Contact) :
    ∃ keep, net.Spares (o.map (·.stage)).toList keep ∧ (net.letGo o).2 = net.restrict keep := by
  cases o with
  | none => exact ⟨fun _ => true, spares_nil, restrict_true.symm⟩
  | some s => exact collect_spec h [s.stage]

lemma moved_of_attach (h : net.Consistent) (hp : net.HasPlug plug) (hs : net.HasSocket socket)
    (hc : net.closesCycle plug socket = false) :
    Moved net plug socket ((net.attach plug socket).letGo (net.remote? plug)).2 := by
  obtain ⟨keep, hk, he⟩ := letGo_spec (h.attach_of_apart hp hs hc) (net.remote? plug)
  have hkp : keep plug.stage = true := by
    -- What is taken away is led to by the old supplier, to which the plug's stage led before.
    by_contra hn
    obtain ⟨i, hi, hb⟩ := hk.behind plug.stage (by simpa using hn)
    obtain ⟨old, ho, rfl⟩ := Option.map_eq_some_iff.1 (Option.mem_toList.1 hi)
    rw [remote?_attach, path_update] at hb
    exact h.acyclic plug.stage (.head' ⟨plug.index, old, ho, rfl⟩ hb)
  have hks : keep socket.stage = true := by
    refine hk.closed plug socket ?_ hkp
    rw [remote?_attach, Function.update_self]
  have hids : (net.attach plug socket).ids = net.ids := ids_cut
  have hlives (id : StageId) : ((net.attach plug socket).restrict keep).lives id = true ↔
      id ∈ net.ids ∧ keep id = true := by
    rw [lives_iff, ids_restrict, hids, List.mem_filter]
  rw [he]
  refine ⟨?_, ?_, ?_, ?_, ?_, ?_⟩
  · rw [remote?_restrict, if_pos hkp, remote?_attach, Function.update_self]
  · intro p hpp hl
    rw [remote?_restrict, if_pos ((hlives _).1 hl).2, remote?_attach, Function.update_of_ne hpp]
  · intro s hl
    rw [attached_restrict, if_pos ((hlives _).1 hl).2, attached_attach h hp, List.filter_append,
      List.filter_filter]
    congr 1
    · refine List.filter_congr fun q hq => ?_
      have hq : q.stage ∈ net.ids := (h.valid q s ((h.paired q s).2 hq)).1.lives
      rw [Bool.eq_iff_iff, Bool.and_eq_true, Bool.and_eq_true, hlives]
      tauto
    · split
      · rw [List.filter_cons_of_pos (by simpa using hkp), List.filter_nil]
      · rfl
  · exact ⟨(hlives _).2 ⟨hp.lives, hkp⟩, (hlives _).2 ⟨hs.lives, hks⟩⟩
  · exact fun id hl => lives_iff.2 ((hlives id).1 hl).1
  · intro id s hf hh
    refine (hlives id).2 ⟨find?_isSome.1 (by rw [hf]; rfl), ?_⟩
    by_contra hn
    have hf' : (net.attach plug socket).find? id = some s := find?_cut.trans hf
    have := hk.idle id s hf' (by simpa using hn)
    omega

/-- In every state plugs and sockets tell the same of their connections, and connecting changes
what was asked for or nothing. -/
theorem paired_run (edits : List Edit) :
    (∀ p s, (run edits).remote? p = some s ↔ p ∈ (run edits).attached s) ∧
      (∀ p s, p ∈ (run edits).attached s → ((run edits).attached s).count p = 1) ∧
      (∀ p s t, p ∈ (run edits).attached s → p ∈ (run edits).attached t → s = t) ∧
      (∀ p s, (run edits).remote? p = some s → (run edits).lives s.stage = true) ∧
      ∀ plug socket,
        (∀ e net, Network.connect plug socket (run edits) = .error e net →
          (∀ p, net.remote? p = (run edits).remote? p) ∧
            ∀ s, net.attached s = (run edits).attached s) ∧
        ∀ freed net, Network.connect plug socket (run edits) = .ok freed net →
          Moved (run edits) plug socket net := by
  have h := consistent_run edits
  refine ⟨h.paired, ?_, ?_, ?_, fun plug socket => ?_⟩
  · exact fun p s hp => List.count_eq_one_of_mem (h.once s) hp
  · intro p s t hs ht
    rw [← h.paired] at hs ht
    exact Option.some.inj (hs.symm.trans ht)
  · exact fun p s hs => lives_iff.2 (h.valid p s hs).2.lives
  · rcases connect_cases (run edits) plug socket with ⟨e, he⟩ | ⟨hp, hs, hc, he⟩
    · rw [he]
      constructor
      · intro e net he
        injection he with _ he
        exact he ▸ ⟨fun _ => rfl, fun _ => rfl⟩
      · intro freed net he
        cases he
    · rw [he]
      constructor
      · intro e net he
        cases he
      · intro freed net he
        injection he with _ he
        exact he ▸ moved_of_attach h hp hs hc

def imageAndTransform : List Edit :=
  [.create ⟨0, .parse "image.root", ⟨0, 1, 0⟩, .filter .imageRoot⟩,
    .create ⟨1, .parse "icc.transform", ⟨0, 1, 0⟩, .filter .gain⟩]

theorem paired_run_image : ∃ freed net,
    Network.connect ⟨1, 0⟩ ⟨0, 0⟩ (run imageAndTransform) = .ok freed net ∧
      net.attached ⟨0, 0⟩ = [⟨1, 0⟩] := by
  have hc : (Connector.data "in").checkCompatible (.data "image") = .ok () := by decide
  have hcyc : (run imageAndTransform).closesCycle ⟨1, 0⟩ ⟨0, 0⟩ = false := by
    rw [Bool.eq_false_iff, ne_eq, closesCycle_iff (consistent_run _)]
    intro h
    rcases ReflTransGen.cases_head h with h | ⟨j, ⟨i, s, hs, -⟩, -⟩
    · cases h
    · cases hs
  have he := @connect_of_compatible (run imageAndTransform) ⟨1, 0⟩ ⟨0, 0⟩ _ _ rfl rfl hc
  rw [hcyc, if_neg (by simp)] at he
  have hm := ((paired_run imageAndTransform).2.2.2.2 _ _).2 _ _ he
  refine ⟨_, _, he, ?_⟩
  rw [hm.lists _ hm.ends.2]
  rfl

end Network

end ColourPipeline
