
/-! Breadth-first search, which comes to an end as what is unseen gets less. -/
namespace ColourPipeline

variable {α : Type} [DecidableEq α]

def found (next : α → List α) (unseen : List α) (x : α) : List α :=
  ((next x).filter (· ∈ unseen)).eraseDups

def stillUnseen (next : α → List α) (unseen : List α) (x : α) : List α :=
  let seen := found next unseen x
  unseen.filter (· ∉ seen)

theorem mem_found {next : α → List α} {unseen : List α} {x y : α} :
    y ∈ found next unseen x ↔ y ∈ next x ∧ y ∈ unseen := by
  simp [found, List.mem_eraseDups]

theorem length_stillUnseen_lt {next : α → List α} {unseen : List α} {x y : α}
    (h : y ∈ found next unseen x) : (stillUnseen next unseen x).length < unseen.length :=
  List.length_filter_lt_length_iff_exists.2 ⟨y, (mem_found.1 h).2, by simpa using h⟩

theorem stillUnseen_eq {next : α → List α} {unseen : List α} {x : α}
    (h : found next unseen x = []) : stillUnseen next unseen x = unseen := by
  simp [stillUnseen, h]

def reach (next : α → List α) : List α → List α → List α
  | _, [] => []
  | unseen, x :: queue =>
    x :: reach next (stillUnseen next unseen x) (queue ++ found next unseen x)
termination_by unseen queue => (unseen.length, queue.length)
decreasing_by
  cases h : found next unseen x with
  | nil => simp [Prod.lex_def, stillUnseen_eq h]
  | cons y ys => exact .left _ _ (length_stillUnseen_lt (h ▸ List.mem_cons_self))

def search (next : α → List α) (all : List α) (start : α) : List α :=
  reach next (all.filter (· ≠ start)) [start]

def seek (next : α → List α) (p : α → Bool) : List α → List α → Option α
  | _, [] => none
  | unseen, x :: queue =>
    match (found next unseen x).find? p with
    | some y => some y
    | none => seek next p (stillUnseen next unseen x) (queue ++ found next unseen x)
termination_by unseen queue => (unseen.length, queue.length)
decreasing_by
  cases h : found next unseen x with
  | nil => simp [Prod.lex_def, stillUnseen_eq h]
  | cons y ys => exact .left _ _ (length_stillUnseen_lt (h ▸ List.mem_cons_self))

def firstFound? (next : α → List α) (p : α → Bool) (all : List α) (start : α) : Option α :=
  seek next p (all.filter (· ≠ start)) [start]

end ColourPipeline
