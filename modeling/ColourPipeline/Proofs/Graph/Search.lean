import ColourPipeline.Graph.Search
import Mathlib

namespace ColourPipeline

open Relation

section Reach

variable {α : Type} [DecidableEq α] {next : α → List α}

def Leads (next : α → List α) (within : List α) (x y : α) : Prop := y ∈ next x ∧ y ∈ within

lemma mem_stillUnseen {unseen : List α} {x y : α} :
    y ∈ stillUnseen next unseen x ↔ y ∈ unseen ∧ y ∉ next x := by
  simp only [stillUnseen, List.mem_filter, decide_eq_true_eq, mem_found, not_and]
  tauto

lemma exists_leads_cons {unseen queue : List α} {x y : α} :
    (∃ z ∈ x :: queue, ReflTransGen (Leads next unseen) z y) ↔
      y = x ∨ ∃ z ∈ queue ++ found next unseen x,
        ReflTransGen (Leads next (stillUnseen next unseen x)) z y := by
  constructor
  · rintro ⟨z, hz, hy⟩
    induction hy with
    | refl =>
      rcases List.mem_cons.1 hz with rfl | hz
      · exact .inl rfl
      · exact .inr ⟨z, List.mem_append_left _ hz, .refl⟩
    | @tail c y _ hcy ih =>
      -- A node that `x` leads to may be entered anew from the queue, wherever the path came from.
      by_cases hx : y ∈ next x
      · exact .inr ⟨y, List.mem_append_right _ (mem_found.2 ⟨hx, hcy.2⟩), .refl⟩
      · rcases ih with rfl | ⟨w, hw, hc⟩
        · exact absurd hcy.1 hx
        · exact .inr ⟨w, hw, hc.tail ⟨hcy.1, mem_stillUnseen.2 ⟨hcy.2, hx⟩⟩⟩
  · have hmono : ∀ a b, Leads next (stillUnseen next unseen x) a b → Leads next unseen a b :=
      fun a b h => ⟨h.1, (mem_stillUnseen.1 h.2).1⟩
    rintro (rfl | ⟨z, hz, hy⟩)
    · exact ⟨y, List.mem_cons_self, .refl⟩
    · rcases List.mem_append.1 hz with hz | hz
      · exact ⟨z, List.mem_cons_of_mem x hz, ReflTransGen.mono hmono _ _ hy⟩
      · exact ⟨x, List.mem_cons_self, .head (mem_found.1 hz) (ReflTransGen.mono hmono _ _ hy)⟩

lemma mem_reach {unseen queue : List α} {y : α} :
    y ∈ reach next unseen queue ↔ ∃ x ∈ queue, ReflTransGen (Leads next unseen) x y := by
  induction unseen, queue using reach.induct next with
  | case1 => simp [reach]
  | case2 unseen x queue ih => rw [reach, List.mem_cons, ih, exists_leads_cons]

theorem mem_search {all : List α} {start y : α} (h : ∀ x y, y ∈ next x → y ∈ all) :
    y ∈ search next all start ↔ ReflTransGen (fun x y => y ∈ next x) start y := by
  rw [search, mem_reach]
  constructor
  · rintro ⟨x, hx, hy⟩
    obtain rfl := List.mem_singleton.1 hx
    exact ReflTransGen.mono (fun a b hab => hab.1) _ _ hy
  · intro hy
    refine ⟨start, List.mem_singleton_self start, ?_⟩
    induction hy with
    | refl => exact .refl
    | @tail c y _ hcy ih =>
      by_cases hy : y = start
      · exact hy ▸ .refl
      · exact ih.tail ⟨hcy, List.mem_filter.2 ⟨h c y hcy, by simpa using hy⟩⟩

lemma nodup_eraseDups (xs : List α) : xs.eraseDups.Nodup := by
  cases xs with
  | nil => simp
  | cons x xs =>
    rw [List.eraseDups_cons, List.nodup_cons]
    exact ⟨by simp [List.mem_eraseDups], nodup_eraseDups _⟩
termination_by xs.length
decreasing_by exact Nat.lt_succ_of_le (List.length_filter_le _ _)

lemma nodup_reach {unseen queue : List α} (hq : queue.Nodup) (hd : queue.Disjoint unseen) :
    (reach next unseen queue).Nodup := by
  induction unseen, queue using reach.induct next with
  | case1 => simp [reach]
  | case2 unseen x queue ih =>
    obtain ⟨hx, hq⟩ := List.nodup_cons.1 hq
    obtain ⟨hxu, hqu⟩ := List.disjoint_cons_left.1 hd
    have hfound : queue.Disjoint (found next unseen x) :=
      fun y hy hf => hqu hy (mem_found.1 hf).2
    rw [reach, List.nodup_cons]
    constructor
    · -- Whatever comes later was in the queue or unseen, and `x` was neither.
      intro hr
      obtain ⟨y, hy, hyx⟩ := mem_reach.1 hr
      rcases ReflTransGen.cases_tail hyx with rfl | ⟨z, -, hz⟩
      · rcases List.mem_append.1 hy with hy | hy
        · exact hx hy
        · exact hxu (mem_found.1 hy).2
      · exact hxu (mem_stillUnseen.1 hz.2).1
    · refine ih (hq.append (nodup_eraseDups _) hfound) fun y hy hu => ?_
      have hu := mem_stillUnseen.1 hu
      rcases List.mem_append.1 hy with hy | hy
      · exact hqu hy hu.1
      · exact hu.2 (mem_found.1 hy).1

theorem nodup_search (all : List α) (start : α) : (search next all start).Nodup :=
  nodup_reach (List.nodup_singleton _) (by simp)

end Reach

section Paths

variable {α : Type} {r : α → α → Prop} {a b x y : α}

lemma path_avoiding (h : ReflTransGen r x a) : ReflTransGen (fun u v => r u v ∧ u ≠ a) x a := by
  induction h using ReflTransGen.head_induction_on with
  | refl => exact .refl
  | @head x c hxc _ ih =>
    by_cases hx : x = a
    · exact hx ▸ .refl
    · exact .head ⟨hxc, hx⟩ ih

lemma path_over_edge (h : TransGen (fun u v => r u v ∨ u = a ∧ v = b) x y) :
    TransGen r x y ∨ ReflTransGen r x a ∧ ReflTransGen r b y := by
  induction h with
  | single h =>
    rcases h with h | ⟨rfl, rfl⟩
    · exact .inl (.single h)
    · exact .inr ⟨.refl, .refl⟩
  | tail _ h ih =>
    rcases h with h | ⟨rfl, rfl⟩
    · exact ih.imp (·.tail h) fun ⟨hx, hb⟩ => ⟨hx, hb.tail h⟩
    · exact .inr ⟨ih.elim TransGen.to_reflTransGen And.left, .refl⟩

def Acyclic (r : α → α → Prop) : Prop := ∀ x, ¬ TransGen r x x

lemma Acyclic.mono {s : α → α → Prop} (h : Acyclic r) (hs : ∀ u v, s u v → r u v) : Acyclic s :=
  fun x hx => h x (TransGen.mono hs _ _ hx)

lemma Acyclic.swap (h : Acyclic r) : Acyclic (Function.swap r) :=
  fun x hx => h x (transGen_swap.1 hx)

lemma Acyclic.wellFounded [Finite α] (h : Acyclic r) : WellFounded r := by
  have : IsTrans α (TransGen r) := ⟨fun _ _ _ => TransGen.trans⟩
  have : Std.Irrefl (TransGen r) := ⟨h⟩
  exact Subrelation.wf TransGen.single (Finite.wellFounded_of_trans_of_irrefl (TransGen r))

lemma Acyclic.nodup_of_isChain (h : Acyclic r) {xs : List α} (hxs : xs.IsChain r) : xs.Nodup := by
  have hpaths : xs.Pairwise (TransGen r) :=
    List.isChain_iff_pairwise.1 (hxs.imp fun _ _ => TransGen.single)
  refine hpaths.imp fun {a b} hab he => ?_
  subst he
  exact h a hab

theorem acyclic_with_edge (h : Acyclic r) :
    Acyclic (fun u v => r u v ∨ u = a ∧ v = b) ↔ ¬ ReflTransGen r b a := by
  constructor
  · intro hc hb
    have hs : r ≤ fun u v => r u v ∨ u = a ∧ v = b := fun u v => .inl
    exact hc a (.head' (.inr ⟨rfl, rfl⟩) (ReflTransGen.mono hs _ _ hb))
  · intro hb x hx
    rcases path_over_edge hx with hx | ⟨hxa, hbx⟩
    · exact h x hx
    · exact hb (hbx.trans hxa)

end Paths

end ColourPipeline
