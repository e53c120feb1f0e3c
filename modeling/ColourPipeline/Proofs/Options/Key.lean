import ColourPipeline.Proofs.Options.Alike
import ColourPipeline.Pull.Service

/-! Texts of options, read back without the blanks between their parts. -/

namespace ColourPipeline

open Json Decimal

inductive Scan where
  | plain
  | colon
  | opened
  | emptied
  | text
  | escaped
  | closed
  | dead
deriving DecidableEq

namespace Scan

def outside (c : Char) : Scan := if c = '"' then text else if c = ':' then colon else plain

def step : Scan → Char → Scan
  | plain, c | emptied, c => outside c
  | colon, c => if c = '[' then opened else outside c
  | opened, c => if c = '{' then dead else if c = ']' then emptied else outside c
  | text, c => if c = '\\' then escaped else if c = '"' then closed else text
  | escaped, _ => text
  | closed, c => if c ∈ [',', '}', ']', ':'] then outside c else dead
  | dead, _ => dead

def run (q : Scan) (cs : List Char) : Scan := cs.foldl step q

@[simp] lemma run_nil (q : Scan) : run q [] = q := rfl

@[simp] lemma run_cons (q : Scan) (c : Char) (cs : List Char) :
    run q (c :: cs) = run (step q c) cs := rfl

@[simp] lemma run_append (q : Scan) (cs ds : List Char) :
    run q (cs ++ ds) = run (run q cs) ds := by
  simp [run, List.foldl_append]

lemma run_dead (cs : List Char) : run dead cs = dead := by
  induction cs with
  | nil => rfl
  | cons c cs ih => exact ih

lemma run_unit : ∀ n < 32, run text ('\\' :: 'u' :: Text.Hex.pad 4 n) = text := by decide

lemma run_escape (c : Char) : run text (escape c) = text := by
  rw [escape]
  iterate 7
    split
    · rfl
  split
  · exact run_unit _ ‹_›
  · simp [step, *]

lemma run_body (cs : List Char) : run text (cs.flatMap escape) = text := by
  induction cs with
  | nil => rfl
  | cons c cs ih => rw [List.flatMap_cons, run_append, run_escape, ih]

lemma run_quoted {q : Scan} (hq : step q '"' = text) (s : String) : run q (quoted s) = closed := by
  rw [quoted, run_cons, hq, run_append, run_body]
  rfl

def Tame (cs : List Char) : Prop := ∀ c ∈ cs, c ≠ '"' ∧ c ≠ ':' ∧ c ≠ '['

lemma Tame.append {cs ds : List Char} (hc : Tame cs) (hd : Tame ds) : Tame (cs ++ ds) :=
  List.forall_mem_append.2 ⟨hc, hd⟩

lemma run_plain {cs : List Char} (h : Tame cs) : run plain cs = plain := by
  induction cs with
  | nil => rfl
  | cons c cs ih =>
    obtain ⟨hc, hcs⟩ := List.forall_mem_cons.1 h
    have hs : step plain c = plain := by simp [step, outside, hc]
    rw [run_cons, hs, ih hcs]

lemma run_colon {cs : List Char} (h : Tame cs) (hne : cs ≠ []) : run colon cs = plain := by
  cases cs with
  | nil => contradiction
  | cons c cs =>
    obtain ⟨hc, hcs⟩ := List.forall_mem_cons.1 h
    have hs : step colon c = plain := by simp [step, outside, hc]
    rw [run_cons, hs, run_plain hcs]

lemma tame_of_all_isDigit {cs : List Char} (h : cs.all isDigit = true) : Tame cs := by
  intro c hc
  have hd := List.all_eq_true.1 h c hc
  refine ⟨?_, ?_, ?_⟩ <;>
    · rintro rfl
      revert hd
      decide

lemma tame_digits (n : ℕ) : Tame (digits n) := tame_of_all_isDigit (all_isDigit_digits n)

lemma tame_zeros (n : ℕ) : Tame (List.replicate n '0') := by
  intro c hc
  obtain rfl := List.eq_of_mem_replicate hc
  decide

lemma tame_intChars (z : ℤ) : Tame (intChars z) := by
  rw [intChars]
  split
  · exact List.forall_mem_cons.2 ⟨by decide, tame_digits _⟩
  · exact tame_digits _

lemma tame_place {ds : List Char} (hd : Tame ds) (point : ℤ) :
    Tame (Style.document.place ds point) := by
  have ht : Tame (ds.take point.toNat) := fun c hc => hd c (List.mem_of_mem_take hc)
  have hr : Tame (ds.drop point.toNat) := fun c hc => hd c (List.mem_of_mem_drop hc)
  have hp : Tame ['.'] := by simp [Tame]
  rw [Style.place]
  split
  · have hz : Tame ['0', '.'] := by simp [Tame]
    exact hz.append ((tame_zeros _).append hd)
  split
  · have he : Tame ['.', '0'] := by simp [Tame]
    exact (hd.append (tame_zeros _)).append he
  · exact ht.append (hp.append hr)

lemma tame_withExponent {ds : List Char} (hd : Tame ds) (power : ℤ) :
    Tame (Style.withExponent ds power) := by
  have ht : Tame (ds.take 1) := fun c hc => hd c (List.mem_of_mem_take hc)
  have hr : Tame (ds.drop 1) := fun c hc => hd c (List.mem_of_mem_drop hc)
  have hp : Tame ['.'] := by simp [Tame]
  have hs : Tame ['e', if power < 0 then '-' else '+'] := by split <;> simp [Tame]
  have he := hs.append (tame_digits power.natAbs)
  rw [Style.withExponent]
  split
  · exact (ht.append (by simp [Tame])).append he
  · exact (ht.append (hp.append hr)).append he

lemma tame_floatChars (x : Float) : Tame (floatChars x) := by
  rw [floatChars]
  split
  · have hs {s : Float.Model.UnpackedFloat.Sign} {cs : List Char} (h : Tame cs) :
        Tame (Style.signed s cs) := by
      cases s with
      | positive => exact h
      | negative => exact List.forall_mem_cons.2 ⟨by decide, h⟩
    rw [Style.chars]
    split
    · simp [Tame]
    · exact hs (by simp [Tame])
    · exact hs (by simp [Tame, Style.document])
    · apply hs
      unfold Style.scaled
      dsimp only
      split
      · exact tame_place (tame_digits _) _
      · exact tame_withExponent (tame_digits _) _
  · simp [Tame]

lemma run_items (ps : List String) (l : ℕ) :
    run closed (writeItems .compact l (ps.map .str)) = closed := by
  induction ps with
  | nil => rfl
  | cons p ps ih =>
    have hq := @run_quoted plain rfl p
    simp [writeItems, write, run_append, step, outside, hq, ih]

lemma run_value (v : OptionValue) (l : ℕ) : run colon (write .compact l v.toJson) = plain := by
  have hq (n : String) := @run_quoted plain rfl n
  have hc (n : String) := @run_quoted colon rfl n
  have ho (n : String) := @run_quoted opened rfl n
  cases v with
  | int n =>
    have hi : run colon (intChars n.toInt) = plain :=
      run_colon (tame_intChars _) (write_ne_nil .compact l (.int _))
    simp [OptionValue.toJson, write, writeMembers, step, outside, hq, hi]
  | double x =>
    have hx : run colon (floatChars x) = plain :=
      run_colon (tame_floatChars x) (write_ne_nil .compact l (.float x))
    simp [OptionValue.toJson, write, writeMembers, step, outside, hq, hx]
  | text s =>
    simp [OptionValue.toJson, write, writeMembers, step, outside, hq, hc]
  | profiles names =>
    cases names with
    | nil => simp [OptionValue.toJson, write, writeMembers, step, outside, hq]
    | cons p ps =>
      simp [OptionValue.toJson, write, writeMembers, step, outside, hq, ho, run_items]

lemma run_bool (b : Bool) (l : ℕ) : run colon (write .compact l (.bool b)) = plain := by
  cases b <;> rfl

lemma run_entry (e : OptionEntry) (l : ℕ) : run plain (write .compact l e.toJson) = plain := by
  have hq (n : String) := @run_quoted plain rfl n
  have hc (n : String) := @run_quoted colon rfl n
  simp [OptionEntry.toJson, OptionSource.toJson, OptionFlags.toJson, step, outside, hq, hc,
    run_value, run_bool, write_str, write_obj, writeMembers]

lemma run_entries (es : List OptionEntry) (l : ℕ) :
    run plain (writeItems .compact l (es.map (·.toJson))) = plain := by
  induction es with
  | nil => rfl
  | cons e es ih => simp [writeItems, step, outside, run_entry, ih]

lemma run_set (s : OptionSet) : run plain (write .compact 0 s.toJson) = plain := by
  obtain ⟨es⟩ := s
  cases es with
  | nil => rfl
  | cons e es => simp [OptionSet.toJson, write, step, outside, run_entry, run_entries]

lemma run_colon_set (q : Scan) (s : OptionSet) :
    run q (':' :: write .compact 0 s.toJson) ≠ plain := by
  obtain ⟨es⟩ := s
  cases es with
  | nil => cases q <;> decide
  | cons e es =>
    have hd : ∃ cs, ':' :: write .compact 0 (OptionSet.toJson ⟨e :: es⟩) =
        [':', '[', '{', '"', 'r'] ++ cs := by
      simp [OptionSet.toJson, write, OptionEntry.toJson, quoted, Json.escape]
    obtain ⟨cs, hcs⟩ := hd
    have hq : run q [':', '[', '{', '"', 'r'] = dead := by cases q <;> rfl
    rw [hcs, run_append, hq, run_dead]
    simp

end Scan

lemma eq_of_append_colon {r r' : List Char} {s t : OptionSet}
    (h : r ++ ':' :: write .compact 0 s.toJson = r' ++ ':' :: write .compact 0 t.toJson) :
    r = r' := by
  -- If one of the texts before the colon were longer, a set would hold a colon and a set.
  have hne {cs : List Char} {s t : OptionSet}
      (h : ':' :: write .compact 0 s.toJson = cs ++ ':' :: write .compact 0 t.toJson) :
      cs = [] := by
    cases cs with
    | nil => rfl
    | cons c cs =>
      have hr := Scan.run_set s
      rw [List.cons_append] at h
      rw [(List.cons.inj h).2, Scan.run_append] at hr
      exact absurd hr (Scan.run_colon_set _ t)
  obtain ⟨cs, hr, hc⟩ | ⟨cs, hr, hc⟩ := List.append_eq_append_iff.1 h
  · rw [hr, hne hc, List.append_nil]
  · rw [hr, hne hc, List.append_nil]

def gainText (r : Path) (s : OptionSet) : String := r.text ++ ":" ++ s.compactText

theorem gainText_eq_iff {r r' : Path} {s t : OptionSet} :
    gainText r s = gainText r' t ↔ r = r' ∧ s.Alike t := by
  have htext (r : Path) (s : OptionSet) : (gainText r s).toList =
      r.text.toList ++ ':' :: write .compact 0 s.toJson := by
    simp [gainText, OptionSet.compactText, compact]
  constructor
  · intro h
    have hl := congrArg String.toList h
    rw [htext, htext] at hl
    have hr := eq_of_append_colon hl
    rw [hr] at hl
    have ht := (List.cons.inj (List.append_cancel_left hl)).2
    exact ⟨congrArg Path.mk (String.toList_inj.1 hr),
      OptionSet.compactText_eq_iff.1 (congrArg String.ofList ht)⟩
  · rintro ⟨rfl, ho⟩
    rw [gainText, OptionSet.compactText_eq_iff.2 ho]
    rfl

end ColourPipeline
