import ColourPipeline.Proofs.Pull.Memo
import ColourPipeline.Proofs.Work

namespace ColourPipeline

namespace Pull

variable {α β : Type} {P : Pipeline → Prop} {net : Network}

def Keeps (P : Pipeline → Prop) (m : Pull α) : Prop := ∀ p t, P p → P (Work.left (m (p, t))).1

lemma keeps_pure (a : α) : Keeps P (pure a) := fun _ _ h => h

lemma keeps_throw (e : Stop) : Keeps P (throw e : Pull α) := fun _ _ h => h

lemma Keeps.bind {m : Pull α} {f : α → Pull β} (h : Keeps P m) (hf : ∀ a, Keeps P (f a)) :
    Keeps P (m >>= f) := by
  intro p t hp
  have hm := h p t hp
  show P (Work.left (EStateM.bind m f (p, t))).1
  rw [EStateM.bind]
  cases hr : m (p, t) with
  | ok a s =>
    rw [hr] at hm
    exact hf a s.1 s.2 hm
  | error e s =>
    rw [hr] at hm
    exact hm

lemma keeps_lift (r : Except Stop α) : Keeps P (Work.lift r) := by
  intro p t hp
  cases r with
  | ok a => exact hp
  | error e => exact hp

lemma keeps_onTicket (w : Work Stop Ticket α) : Keeps P (onTicket w) := by
  intro p t hp
  show P (Work.left (Work.on _ _ w (p, t))).1
  rw [Work.on]
  cases w t with
  | ok a u => exact hp
  | error e u => exact hp

lemma keeps_pipeline {f : Pipeline → Pull α} (hf : ∀ p, P p → Keeps P (f p)) :
    Keeps P (pipeline >>= f) := fun p t hp => hf p hp p t hp

lemma keeps_change {f : Pipeline → Pipeline} (hf : ∀ p, P p → P (f p)) : Keeps P (change f) :=
  fun p _ hp => hf p hp

lemma keeps_serve [Memory] (s : Stage) (socket : ℕ) : Keeps P (serve s socket) := by
  rw [Pull.serve]
  cases s.image? socket with
  | none => exact keeps_pure _
  | some i => exact keeps_onTicket _

lemma keeps_applyGain {s : Stage} (hd : ∀ p, P p → P (p.drawGain s).2)
    (hc : ∀ p workspace n, P p → P (p.countBatch s workspace n)) : Keeps P (applyGain s) :=
  fun p _ hp => hc _ _ _ (hd p hp)

section Service

variable (hnet : ∀ p, P p → p.network = net) (hlog : ∀ p e, P p → P (p.report e))

include hnet

lemma keeps_depth {f : ℕ → Pull α} (hf : Keeps P (f net.stages.length)) :
    Keeps P (depth >>= f) := by
  intro p t hp
  have h := hf p t hp
  rw [← hnet p hp] at h
  exact h

lemma keeps_through {run : Stage → ℕ → Option Contact → Pull Progress} {s : Stage} {plug : ℕ}
    (hr : ∀ socket supplier, net.remote? ⟨s.id, plug⟩ = some socket →
      net.find? socket.stage = some supplier → ∀ i c, Keeps P (run supplier i c)) :
    Keeps P (through run s plug) := by
  refine (keeps_lift _).bind fun _ => keeps_pipeline fun p hp => ?_
  obtain rfl := hnet p hp
  dsimp only
  cases hs : p.network.remote? ⟨s.id, plug⟩ with
  | none => exact keeps_pure _
  | some socket =>
    dsimp only
    cases hf : p.network.find? socket.stage with
    | none => exact keeps_pure _
    | some supplier => exact hr socket supplier hs hf _ _

include hlog

theorem keeps_service [Memory] (depth : ℕ) (s : Stage) (socket : ℕ) (requestor : Option Contact)
    (hs : ∀ u ∈ net.route depth s, u.filter.role = .transform → Keeps P (applyGain u)) :
    Keeps P (service depth s socket requestor) := by
  induction depth generalizing s socket requestor with
  | zero => exact keeps_pure _
  | succ depth ih =>
    have ht : Keeps P (through (service depth) s (Network.outlet s)) := by
      refine keeps_through hnet fun c supplier hr hf i plug =>
        ih supplier i plug fun u hu => hs u ?_
      have hsup : net.supplier? s = some supplier := by
        rw [Network.supplier?, hr, Option.bind_some, hf]
      rw [Network.route, hsup]
      exact List.mem_cons_of_mem s hu
    rw [Pull.service]
    cases hrole : s.filter.role with
    | source => exact keeps_serve s socket
    | output =>
      have ho : Network.outlet s = 0 := by simp [Network.outlet, hrole]
      refine keeps_pipeline fun p _ => ?_
      split
      · exact ho ▸ ht
      · exact keeps_pure _
    | transform =>
      have ho : Network.outlet s = 0 := by simp [Network.outlet, hrole]
      have hmem : s ∈ net.route (depth + 1) s := List.mem_cons_self
      refine (ho ▸ ht).bind fun progress => ?_
      dsimp only
      split
      · exact (hs s hmem hrole).bind fun _ => keeps_pure _
      · exact keeps_pure _
    | host action =>
      refine (keeps_change fun p => hlog p _).bind fun _ => ?_
      cases action with
      | pull plug =>
        have ho : Network.outlet s = plug := by simp [Network.outlet, hrole]
        exact ho ▸ ht
      | serve => exact keeps_serve s socket
      | answer progress => exact keeps_pure _
      | refuse text => exact keeps_throw _

end Service

end Pull

end ColourPipeline
