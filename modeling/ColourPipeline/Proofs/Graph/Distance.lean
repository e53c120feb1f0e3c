import ColourPipeline.Proofs.Graph.Search

/-! Breadth-first order is by distance, and the first one found is the nearest. -/

namespace ColourPipeline

open Relation

inductive Walks {α : Type} (r : α → α → Prop) : ℕ → α → α → Prop
  | refl (x : α) : Walks r 0 x x
  | tail {n : ℕ} {x y z : α} : Walks r n x y → r y z → Walks r (n + 1) x z

section Walks

variable {α : Type} {r : α → α → Prop} {x y : α}

lemma exists_walks : (∃ n, Walks r n x y) ↔ ReflTransGen r x y := by
  constructor
  · rintro ⟨n, h⟩
    induction h with
    | refl x => exact .refl
    | tail _ h ih => exact ih.tail h
  · intro h
    induction h with
    | refl => exact ⟨0, .refl x⟩
    | tail _ h ih =>
      obtain ⟨n, hn⟩ := ih
      exact ⟨n + 1, hn.tail h⟩

def AtDistance (r : α → α → Prop) (n : ℕ) (x y : α) : Prop :=
  Walks r n x y ∧ ∀ m < n, ¬ Walks r m x y

lemma Walks.exists_atDistance {n : ℕ} (h : Walks r n x y) : ∃ m ≤ n, AtDistance r m x y := by
  classical
  have hex : ∃ m, Walks r m x y := ⟨n, h⟩
  exact ⟨Nat.find hex, Nat.find_le h, Nat.find_spec hex, fun m hm => Nat.find_min hex hm⟩

lemma atDistance_zero : AtDistance r 0 x y ↔ y = x := by
  constructor
  · rintro ⟨h, -⟩
    cases h
    rfl
  · rintro rfl
    exact ⟨.refl y, fun m hm => absurd hm (Nat.not_lt_zero m)⟩

lemma AtDistance.exists_tail {n : ℕ} {z : α} (h : AtDistance r (n + 1) x z) :
    ∃ y, AtDistance r n x y ∧ r y z := by
  obtain ⟨hw, hmin⟩ := h
  cases hw with
  | @tail _ _ y _ hy hyz =>
    exact ⟨y, ⟨hy, fun m hm hm' => hmin (m + 1) (by omega) (hm'.tail hyz)⟩, hyz⟩

end Walks

section Levels

variable {α : Type} [DecidableEq α] {next : α → List α}

def front (next : α → List α) : List α → List α → List α
  | _, [] => []
  | unseen, x :: xs => found next unseen x ++ front next (stillUnseen next unseen x) xs

def beyond (next : α → List α) (unseen xs : List α) : List α := xs.foldl (stillUnseen next) unseen

lemma mem_beyond {unseen xs : List α} {y : α} :
    y ∈ beyond next unseen xs ↔ y ∈ unseen ∧ ∀ x ∈ xs, y ∉ next x := by
  induction xs generalizing unseen with
  | nil => simp [beyond]
  | cons x xs ih =>
    rw [beyond, List.foldl_cons, ← beyond, ih, mem_stillUnseen, List.forall_mem_cons, and_assoc]

lemma mem_front {unseen xs : List α} {y : α} :
    y ∈ front next unseen xs ↔ y ∈ unseen ∧ ∃ x ∈ xs, y ∈ next x := by
  induction xs generalizing unseen with
  | nil => simp [front]
  | cons x xs ih =>
    rw [front, List.mem_append, ih, mem_found, mem_stillUnseen, List.exists_mem_cons_iff]
    by_cases hx : y ∈ next x
    · simp [hx, and_comm]
    · simp [hx]

lemma reach_append (unseen xs ys : List α) : reach next unseen (xs ++ ys) =
    xs ++ reach next (beyond next unseen xs) (ys ++ front next unseen xs) := by
  induction xs generalizing unseen ys with
  | nil => simp [beyond, front]
  | cons x xs ih =>
    rw [List.cons_append, reach, List.append_assoc, ih, List.append_assoc]
    rfl

lemma reach_eq (unseen xs : List α) : reach next unseen xs =
    xs ++ reach next (beyond next unseen xs) (front next unseen xs) := by
  have h := @reach_append α _ next unseen xs []
  rwa [List.append_nil, List.nil_append] at h

def level (next : α → List α) (all : List α) (start : α) : ℕ → List α × List α
  | 0 => ([start], all.filter (· ≠ start))
  | n + 1 =>
    let (xs, unseen) := level next all start n
    (front next unseen xs, beyond next unseen xs)

variable {all : List α} {start : α}

lemma mem_level (h : ∀ x y, y ∈ next x → y ∈ all) (n : ℕ) :
    (∀ y, y ∈ (level next all start n).1 ↔ AtDistance (fun x y => y ∈ next x) n start y) ∧
      ∀ y, y ∈ (level next all start n).2 ↔
        y ∈ all ∧ ∀ m ≤ n, ¬ Walks (fun x y => y ∈ next x) m start y := by
  induction n with
  | zero =>
    constructor
    · intro y
      rw [atDistance_zero]
      exact List.mem_singleton
    · intro y
      rw [level, List.mem_filter]
      refine and_congr_right fun _ => ?_
      rw [decide_eq_true_iff]
      constructor
      · intro hy m hm hw
        obtain rfl : m = 0 := by omega
        cases hw
        exact hy rfl
      · rintro hy rfl
        exact hy 0 le_rfl (.refl y)
  | succ n ih =>
    obtain ⟨ihl, ihu⟩ := ih
    constructor
    · intro y
      rw [level, mem_front, ihu]
      constructor
      · rintro ⟨⟨-, hy⟩, x, hx, hxy⟩
        exact ⟨((ihl x).1 hx).1.tail hxy, fun m hm => hy m (by omega)⟩
      · intro hy
        obtain ⟨x, hx, hxy⟩ := hy.exists_tail
        exact ⟨⟨h x y hxy, fun m hm => hy.2 m (by omega)⟩, x, (ihl x).2 hx, hxy⟩
    · intro y
      rw [level, mem_beyond, ihu]
      constructor
      · rintro ⟨⟨hall, hy⟩, hn⟩
        refine ⟨hall, fun m hm hw => ?_⟩
        obtain ⟨k, hk, hd⟩ := hw.exists_atDistance
        cases k with
        | zero => exact hy 0 (by omega) hd.1
        | succ k =>
          by_cases hkn : k + 1 ≤ n
          · exact hy (k + 1) hkn hd.1
          · obtain rfl : k = n := by omega
            obtain ⟨x, hx, hxy⟩ := hd.exists_tail
            exact hn x ((ihl x).2 hx) hxy
      · rintro ⟨hall, hy⟩
        refine ⟨⟨hall, fun m hm => hy m (by omega)⟩, fun x hx hxy => ?_⟩
        exact hy (n + 1) le_rfl (((ihl x).1 hx).1.tail hxy)

def upTo (next : α → List α) (all : List α) (start : α) (n : ℕ) : List α :=
  (List.range n).flatMap fun m => (level next all start m).1

theorem search_eq (n : ℕ) : search next all start = upTo next all start n ++
    reach next (level next all start n).2 (level next all start n).1 := by
  induction n with
  | zero => rfl
  | succ n ih =>
    rw [ih, reach_eq, upTo, upTo, List.range_succ, List.flatMap_append, List.flatMap_singleton,
      List.append_assoc]
    rfl

lemma drop_reach (unseen queue : List α) : (reach next unseen queue).drop queue.length =
    reach next (beyond next unseen queue) (front next unseen queue) := by
  rw [reach_eq, List.drop_left]

lemma drop_reach_cons (unseen : List α) (x : α) (queue : List α) :
    (reach next unseen (x :: queue)).drop (x :: queue).length = found next unseen x ++
      (reach next (stillUnseen next unseen x) (queue ++ found next unseen x)).drop
        (queue ++ found next unseen x).length := by
  rw [reach, List.length_cons, List.drop_succ_cons, drop_reach _ (queue ++ found next unseen x),
    reach_eq _ (queue ++ found next unseen x), List.append_assoc, List.drop_left]

lemma seek_eq (p : α → Bool) (unseen queue : List α) : seek next p unseen queue =
    ((reach next unseen queue).drop queue.length).find? p := by
  induction unseen, queue using seek.induct next p with
  | case1 => simp [seek, reach]
  | case2 unseen x queue y hf => rw [seek, drop_reach_cons, List.find?_append, hf, Option.some_or]
  | case3 unseen x queue hf ih =>
    rw [seek, drop_reach_cons, List.find?_append, hf, Option.none_or]
    exact ih

theorem firstFound?_eq (p : α → Bool) :
    firstFound? next p all start = (search next all start).tail.find? p := by
  rw [firstFound?, seek_eq, search, List.length_singleton, List.drop_one]

lemma mem_tail_search {y : α} :
    y ∈ (search next all start).tail ↔ y ≠ start ∧ y ∈ search next all start := by
  rw [search, reach_eq, List.singleton_append, List.tail_cons, List.mem_cons]
  have hne (h : y ∈ reach next (beyond next (all.filter (· ≠ start)) [start])
      (front next (all.filter (· ≠ start)) [start])) : y ≠ start := by
    obtain ⟨x, hx, hxy⟩ := mem_reach.1 h
    have hy : y ∈ all.filter (· ≠ start) := by
      cases hxy with
      | refl => exact (mem_front.1 hx).1
      | tail _ hy => exact (mem_beyond.1 hy.2).1
    simpa using (List.mem_filter.1 hy).2
  tauto

section Closed

variable (h : ∀ x y, y ∈ next x → y ∈ all)

include h

theorem firstFound?_eq_none (p : α → Bool) : firstFound? next p all start = none ↔
    ∀ y, y ≠ start → p y = true → ¬ ReflTransGen (fun x y => y ∈ next x) start y := by
  rw [firstFound?_eq, List.find?_eq_none]
  simp only [mem_tail_search, mem_search h]
  constructor
  · exact fun hn y hy hp hr => hn y ⟨hy, hr⟩ hp
  · exact fun hn y hy hp => hn y hy.1 hp hy.2

theorem firstFound?_nearest {p : α → Bool} {y z : α} {n : ℕ}
    (hy : firstFound? next p all start = some y) (hz : z ≠ start) (hp : p z = true)
    (hw : Walks (fun x y => y ∈ next x) n start z) :
    ∃ m ≤ n, Walks (fun x y => y ∈ next x) m start y := by
  obtain ⟨k, hk, hd⟩ := hw.exists_atDistance
  -- The levels up to that of `z` are the first part of the search, so what is found is in them.
  have hupTo : ∃ zs, upTo next all start (k + 1) = start :: zs := by
    rw [upTo, List.range_succ_eq_map, List.flatMap_cons]
    exact ⟨_, rfl⟩
  obtain ⟨zs, hzs⟩ := hupTo
  have hmem : z ∈ zs := by
    have hl : z ∈ upTo next all start (k + 1) :=
      List.mem_flatMap.2 ⟨k, List.mem_range.2 (by omega), ((mem_level h k).1 z).2 hd⟩
    rw [hzs] at hl
    exact (List.mem_cons.1 hl).resolve_left hz
  rw [firstFound?_eq, search_eq (k + 1), hzs, List.cons_append, List.tail_cons,
    List.find?_append] at hy
  obtain ⟨w, hw⟩ := Option.isSome_iff_exists.1 (List.find?_isSome.2 ⟨z, hmem, hp⟩)
  rw [hw, Option.some_or] at hy
  obtain rfl := Option.some.inj hy
  have hl : w ∈ upTo next all start (k + 1) := by
    rw [hzs]
    exact List.mem_cons_of_mem _ (List.mem_of_find?_eq_some hw)
  obtain ⟨m, hm, hwm⟩ := List.mem_flatMap.1 hl
  have hm := List.mem_range.1 hm
  exact ⟨m, by omega, (((mem_level h m).1 w).1 hwm).1⟩

end Closed

end Levels

end ColourPipeline
