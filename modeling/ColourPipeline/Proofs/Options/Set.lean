import ColourPipeline.Options.Set
import ColourPipeline.Proofs.Decimal.Rounding

namespace ColourPipeline

open Decimal Float.Model

namespace OptionValue

def isNaN : OptionValue → Bool
  | .double x => x.isNaN
  | _ => false

lemma compare_self (u : UnpackedFloat) : u.compare u = if u.isNaN then none else some .eq := by
  cases u with
  | notANumber => rfl
  | infinity s => cases s <;> rfl
  | zero s => cases s <;> rfl
  | finite s m e h => cases s <;> simp [UnpackedFloat.compare, UnpackedFloat.isNaN]

lemma beq_self_eq (x : Float) : (x == x) = !x.isNaN := by
  change ((unpack x).compare (unpack x) == some .eq) = !(unpack x).isNaN
  rw [compare_self]
  cases (unpack x).isNaN <;> rfl

lemma same_self (v : OptionValue) : v.same v = !v.isNaN := by
  cases v with
  | double x => exact beq_self_eq x
  | _ => simp [same, isNaN]

end OptionValue

namespace OptionSet

variable {s : OptionSet} {e : OptionEntry} {k : String}

lemma key_of_find? (h : s.find? k = some e) : e.key = k := by
  simpa using List.find?_some h

lemma find?_put (ds : List OptionEntry) : (put e ds).find? (·.key == k) =
    if k = e.key then some e else ds.find? (·.key == k) := by
  induction ds with
  | nil =>
    by_cases h : k = e.key
    · simp [put, h]
    · simp [put, h, Ne.symm h]
  | cons d ds ih =>
    by_cases hd : d.key = e.key
    · by_cases h : k = e.key
      · simp [put, hd, h]
      · simp [put, hd, h, Ne.symm h]
    · by_cases h : d.key = k
      · subst h
        simp [put, hd]
      · simp [put, hd, h, ih]

lemma find?_insert : (s.insert e).find? k = if k = e.key then some e else s.find? k :=
  find?_put s.entries

lemma put_of_find? {ds : List OptionEntry} (h : ds.find? (·.key == e.key) = some e) :
    put e ds = ds := by
  induction ds with
  | nil => cases h
  | cons d ds ih =>
    by_cases hd : d.key = e.key
    · rw [List.find?_cons_of_pos (by simpa using hd)] at h
      rw [put, if_pos hd, Option.some.inj h]
    · rw [List.find?_cons_of_neg (by simpa using hd)] at h
      rw [put, if_neg hd, ih h]

lemma insert_of_find? (h : s.find? e.key = some e) : s.insert e = s :=
  congrArg OptionSet.mk (put_of_find? h)

lemma find?_isSome : (s.find? k).isSome = true ↔ k ∈ s.keys := by
  simp [find?, keys]

lemma find?_eq_none : s.find? k = none ↔ k ∉ s.keys := by
  simp [find?, keys]

lemma find?_of_mem (hs : s.keys.Nodup) (he : e ∈ s.entries) : s.find? e.key = some e := by
  obtain ⟨ds⟩ := s
  simp only [find?, keys] at hs he ⊢
  induction ds with
  | nil => cases he
  | cons d ds ih =>
    obtain ⟨hd, hds⟩ := List.nodup_cons.1 hs
    rcases List.mem_cons.1 he with rfl | he
    · simp
    · have hne : d.key ≠ e.key := fun h => hd (List.mem_map.2 ⟨e, he, h.symm⟩)
      rw [List.find?_cons_of_neg (by simpa using hne)]
      exact ih hds he

lemma entries_eq (hs : s.keys.Nodup) : s.entries = s.keys.filterMap s.find? := by
  rw [keys, List.filterMap_map]
  conv_lhs => rw [← @List.filterMap_some _ s.entries]
  refine List.filterMap_congr fun e he => ?_
  exact (find?_of_mem hs he).symm

lemma put_of_notMem {ds : List OptionEntry} (h : e.key ∉ ds.map (·.key)) :
    put e ds = ds ++ [e] := by
  induction ds with
  | nil => rfl
  | cons d ds ih =>
    obtain ⟨hd, hds⟩ := not_or.1 (mt List.mem_cons.2 h)
    rw [put, if_neg (Ne.symm hd), ih hds, List.cons_append]

lemma keys_put (ds : List OptionEntry) : (put e ds).map (·.key) =
    ds.map (·.key) ++ if e.key ∈ ds.map (·.key) then [] else [e.key] := by
  induction ds with
  | nil => simp [put]
  | cons d ds ih =>
    by_cases h : d.key = e.key
    · simp [put, h]
    · simp [put, h, Ne.symm h, ih]

lemma keys_insert : (s.insert e).keys = s.keys ++ if e.key ∈ s.keys then [] else [e.key] :=
  keys_put s.entries

lemma foldl_insert {ds es : List OptionEntry} (h : ((ds ++ es).map (·.key)).Nodup) :
    es.foldl insert ⟨ds⟩ = ⟨ds ++ es⟩ := by
  induction es generalizing ds with
  | nil => rw [List.append_nil]; rfl
  | cons e es ih =>
    have he : e.key ∉ ds.map (·.key) := by
      rw [List.map_append, List.map_cons, List.nodup_middle, List.nodup_cons] at h
      exact fun hm => h.1 (List.mem_append_left _ hm)
    rw [List.append_cons] at h
    rw [List.foldl_cons, insert, put_of_notMem he, ih h, List.append_assoc]
    rfl

lemma ofList_entries (h : s.keys.Nodup) : ofList s.entries = s :=
  @foldl_insert [] s.entries h

end OptionSet

end ColourPipeline
