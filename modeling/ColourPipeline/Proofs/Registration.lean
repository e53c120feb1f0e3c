import ColourPipeline.Options.Entry
import ColourPipeline.Registration
import Mathlib

namespace ColourPipeline

namespace Text

lemma split_append {sep : Char} (as bs : List Char) :
    split sep (as ++ sep :: bs) = split sep as ++ split sep bs := by
  induction as with
  | nil =>
    rw [List.nil_append, split]
    cases h : split sep bs with
    | nil => exact absurd h (split_ne_nil sep bs)
    | cons w ws => simp [split, h]
  | cons a as ih =>
    rw [List.cons_append, split, ih, split]
    cases h : split sep as with
    | nil => exact absurd h (split_ne_nil sep as)
    | cons w ws =>
      simp only [List.cons_append]
      split <;> rfl

lemma split_of_notMem {sep : Char} {cs : List Char} (h : sep ∉ cs) : split sep cs = [cs] := by
  induction cs with
  | nil => rfl
  | cons c cs ih =>
    obtain ⟨hc, hcs⟩ := not_or.1 (List.mem_cons.not.1 h)
    rw [split, ih hcs]
    simp [Ne.symm hc]

lemma dropWhile_append_cons {p : Char → Bool} {c : Char} (h : p c = false) (as bs : List Char) :
    (as ++ c :: bs).dropWhile p = as.dropWhile p ++ c :: bs := by
  induction as with
  | nil => simp [h]
  | cons a as ih =>
    rw [List.cons_append, List.dropWhile_cons, List.dropWhile_cons, ih]
    split <;> rfl

lemma dropEndWhile_eq_self {p : Char → Bool} {cs : List Char}
    (h : ∀ hc : cs ≠ [], p (cs.getLast hc) = false) : dropEndWhile p cs = cs :=
  List.rdropWhile_eq_self_iff.2 fun hc => by simp [h hc]

end Text

open Text

structure IsKey (cs : List Char) : Prop where
  ne_nil : cs ≠ []
  slash : '/' ∉ cs
  dot : '.' ∉ cs
  blank : isBlank (cs.getLast ne_nil) = false

lemma optionKey_append {cs : List Char} (h : IsKey cs) (as : List Char) :
    optionKey (String.ofList (as ++ '/' :: cs)) = String.ofList cs := by
  have hd : cs.takeWhile (· ≠ '.') = cs := by
    rw [List.takeWhile_eq_self_iff]
    intro c hc
    simpa using ne_of_mem_of_not_mem hc h.dot
  rw [optionKey, String.toList_ofList, split_append, split_of_notMem h.slash,
    List.reverse_append, List.reverse_singleton, List.singleton_append,
    List.find?_cons_of_pos (by simpa using h.ne_nil)]
  exact congrArg String.ofList hd

theorem optionKey_join (p : Path) {key : String} (h : IsKey key.toList) :
    optionKey (p.join key).text = key := by
  have hk : key.toList.dropWhile (· == '/') = key.toList := by
    rw [List.dropWhile_eq_self_iff]
    intro hl
    have := ne_of_mem_of_not_mem (List.getElem_mem hl) h.slash
    simpa using this
  have hb (as : List Char) : trim (as ++ '/' :: key.toList) =
      as.dropWhile isBlank ++ '/' :: key.toList := by
    rw [trim, dropWhile_append_cons (by decide), dropEndWhile_eq_self]
    intro hc
    rw [List.getLast_append_of_ne_nil _ (by simp), List.getLast_cons h.ne_nil]
    exact h.blank
  rw [Path.join, Path.ofChars, hk, hb, optionKey_append h, String.ofList_toList]

end ColourPipeline
