import ColourPipeline.Json.Reader
import ColourPipeline.Proofs.Json.Numeral

namespace ColourPipeline.Json

open Decimal Numeral

lemma number?_pad : ∀ n < 32, Text.Hex.number? (Text.Hex.pad 4 n) = some n := by
  decide

lemma scanText_short {d : Char} {n : ℕ} (hd : escaped? d = some n) (cs : List Char) :
    scanText ('\\' :: d :: cs) = (scanText cs).map fun (ns, rest) => (n :: ns, rest) := by
  have hu : d ≠ 'u' := by
    rintro rfl
    cases hd
  rw [scanText.eq_4 _ _ (by simp [hu]), hd]
  cases scanText cs <;> rfl

lemma scanText_unit {a b c d : Char} {n : ℕ} (hn : Text.Hex.number? [a, b, c, d] = some n)
    (cs : List Char) : scanText ('\\' :: 'u' :: a :: b :: c :: d :: cs) =
      (scanText cs).map fun (ns, rest) => (n :: ns, rest) := by
  rw [scanText, hn]
  cases scanText cs <;> rfl

lemma scanText_plain {c : Char} (hq : c ≠ '"') (hb : c ≠ '\\') (hc : ¬ c.toNat < 0x20)
    (cs : List Char) :
    scanText (c :: cs) = (scanText cs).map fun (ns, rest) => (c.toNat :: ns, rest) := by
  rw [scanText.eq_5 _ _ (by simp [hq]) (by simp [hb]) (by simp [hb]), if_neg (by simp [hb, hc])]
  cases scanText cs <;> rfl

lemma scanText_escape (c : Char) (cs : List Char) :
    scanText (escape c ++ cs) = (scanText cs).map fun (ns, rest) => (c.toNat :: ns, rest) := by
  rw [escape]
  iterate 7
    split
    · subst c
      exact scanText_short rfl cs
  split
  · have hn := number?_pad c.toNat ‹_›
    have hl := Text.Hex.length_pad 4 c.toNat
    obtain ⟨w, x, y, z, h⟩ := List.length_eq_four.1 hl
    rw [h] at hn ⊢
    exact scanText_unit hn cs
  · exact scanText_plain ‹_› ‹_› ‹_› cs

lemma scanText_body (s : String) (rest : List Char) :
    scanText (s.toList.flatMap escape ++ '"' :: rest) = some (s.toList.map Char.toNat, rest) := by
  induction s.toList with
  | nil => rfl
  | cons c cs ih => rw [List.flatMap_cons, List.append_assoc, scanText_escape, ih]; rfl

lemma quoted_append (s : String) (r : List Char) :
    quoted s ++ r = '"' :: (s.toList.flatMap escape ++ '"' :: r) := by
  simp [quoted]

lemma quoted_inj {s t : String} {r r' : List Char} (h : quoted s ++ r = quoted t ++ r') :
    s = t ∧ r = r' := by
  rw [quoted_append, quoted_append] at h
  have hs := scanText_body s r
  rw [(List.cons.inj h).2, scanText_body] at hs
  obtain ⟨hc, hr⟩ := Prod.ext_iff.1 (Option.some.inj hs)
  have hinj : Function.Injective Char.toNat := fun a b hab => Char.toNat_inj.1 hab
  exact ⟨String.toList_inj.1 (hinj.list_map hc).symm, hr.symm⟩

mutual

def printed : Json → Json
  | .unreadable => .null
  | .float x => if x.isFinite then .float x else .null
  | .arr vs => .arr (printedItems vs)
  | .obj ms => .obj (printedMembers ms)
  | v => v

def printedItems : List Json → List Json
  | [] => []
  | v :: vs => v.printed :: printedItems vs

def printedMembers : List (String × Json) → List (String × Json)
  | [] => []
  | (k, v) :: ms => (k, v.printed) :: printedMembers ms

end

def mark : Json → Char
  | .null | .unreadable => 'n'
  | .bool b => if b then 't' else 'f'
  | .int _ => '0'
  | .float x => if x.isFinite then '0' else 'n'
  | .str _ => '"'
  | .arr _ => '['
  | .obj _ => '{'

def sort (c : Char) : Char := if c = '-' ∨ isDigit c then '0' else c

lemma sort_of_scans {cs : List Char} {t : Numeral} (h : Scans cs t) :
    cs.head?.map sort = some '0' := by
  have hs := h [] Stops.nil
  rw [List.append_nil] at hs
  cases cs with
  | nil => cases hs
  | cons c cs =>
    by_cases hm : c = '-'
    · simp [sort, hm]
    · by_cases hd : isDigit c
      · simp [sort, hd]
      · rw [Numeral.scan.eq_2 _ (by simp [hm])] at hs
        have hz : c ≠ '0' := by
          rintro rfl
          exact hd rfl
        simp [scanUnsigned, scanWhole.eq_3 (c :: cs) (by simp [hz]), someDigits, hd] at hs

def Tells (t : Numeral) : Json → Prop
  | .int z => t = ⟨decide (z < 0), digits z.natAbs, none, none⟩
  | .float x => x.isFinite = true ∧ (t.fraction.isSome ∨ t.exponent.isSome) ∧ t.Nears x
  | _ => False

lemma Tells.unique {t : Numeral} {v w : Json} (hv : Tells t v) (hw : Tells t w) : v = w := by
  have hne {z : ℤ} {x : Float} (hz : Tells t (.int z)) (hx : Tells t (.float x)) : False := by
    obtain rfl := hz
    simpa using hx.2.1
  cases v with
  | int y =>
    cases w with
    | int z => rw [numeral_int_inj (hv.symm.trans hw)]
    | float x => exact (hne hv hw).elim
    | _ => exact hw.elim
  | float x =>
    cases w with
    | int z => exact (hne hw hv).elim
    | float y => rw [hv.2.2.unique hw.2.2]
    | _ => exact hw.elim
  | _ => exact hv.elim

lemma Tells.printed {t : Numeral} {v : Json} (hv : Tells t v) : v.printed = v := by
  cases v with
  | int y => rfl
  | float x => exact if_pos hv.1
  | _ => exact hv.elim

def OfSort (w : Json) : Char → Prop
  | 'n' => w.printed = .null ∧ ∀ l, write .compact l w = ['n', 'u', 'l', 'l']
  | 't' => w = .bool true
  | 'f' => w = .bool false
  | '"' => ∃ s, w = .str s
  | '[' => ∃ vs, w = .arr vs
  | '{' => ∃ ms, w = .obj ms
  | _ => ∃ t, (∀ l, Scans (write .compact l w) t) ∧ Tells t w

lemma ofSort_mark (w : Json) : OfSort w w.mark := by
  cases w with
  | null => exact ⟨rfl, fun _ => rfl⟩
  | unreadable => exact ⟨rfl, fun _ => rfl⟩
  | bool b => cases b <;> rfl
  | int z => exact ⟨_, fun _ => by rw [write]; exact scans_int z, rfl⟩
  | float x =>
    by_cases hx : x.isFinite = true
    · obtain ⟨t, ht, hi, hn⟩ := exists_scans hx
      rw [mark, if_pos hx]
      exact ⟨t, fun _ => by rw [write]; exact ht, hx, hi, hn⟩
    · rw [mark, if_neg hx]
      exact ⟨if_neg hx, fun _ => by rw [write, floatChars, if_neg hx]⟩
  | str s => exact ⟨s, rfl⟩
  | arr vs => exact ⟨vs, rfl⟩
  | obj ms => exact ⟨ms, rfl⟩

lemma sort_write (sp : Spacing) (level : ℕ) (v : Json) :
    (write sp level v).head?.map sort = some v.mark := by
  cases v with
  | null => rfl
  | unreadable => rfl
  | bool b => cases b <;> rfl
  | int z =>
    rw [write]
    exact sort_of_scans (scans_int z)
  | float x =>
    rw [write]
    by_cases hx : x.isFinite = true
    · obtain ⟨t, ht, -⟩ := exists_scans hx
      rw [mark, if_pos hx]
      exact sort_of_scans ht
    · rw [mark, if_neg hx, floatChars, if_neg hx]
      rfl
  | str s => rfl
  | arr vs => cases vs <;> rfl
  | obj ms => cases ms <;> rfl

lemma write_ne_nil (sp : Spacing) (level : ℕ) (v : Json) : write sp level v ≠ [] := by
  intro hv
  have hs := sort_write sp level v
  rw [hv] at hs
  cases hs

lemma ofSort_of_write {v w : Json} {l k : ℕ} {r r' : List Char}
    (h : write .compact l v ++ r = write .compact k w ++ r') : OfSort w v.mark := by
  have hv := sort_write .compact l v
  have hw := sort_write .compact k w
  have hm : some v.mark = some w.mark := by
    rw [← hv, ← hw]
    rw [← List.head?_append_of_ne_nil _ (write_ne_nil .compact l v), h,
      List.head?_append_of_ne_nil _ (write_ne_nil .compact k w)]
  rw [Option.some.inj hm]
  exact ofSort_mark w

lemma stops_of_mem {c : Char} (hc : c ∈ [',', ']', '}']) (rest : List Char) :
    Stops (c :: rest) := by
  intro d hd
  obtain rfl : c = d := by simpa using hd
  fin_cases hc <;> decide

section

variable {l k : ℕ} {r r' : List Char}

lemma write_arr_cons (v : Json) (vs : List Json) :
    write .compact l (.arr (v :: vs)) ++ r =
      '[' :: (write .compact (l + 1) v ++ (writeItems .compact (l + 1) vs ++ ']' :: r)) := by
  simp [write]

lemma write_str (s : String) : write .compact l (.str s) = quoted s := rfl

lemma write_obj (n : String) (v : Json) (ms : List (String × Json)) :
    write .compact l (.obj ((n, v) :: ms)) = '{' :: (quoted n ++ (':' ::
      (write .compact (l + 1) v ++ (writeMembers .compact (l + 1) ms ++ ['}'])))) := by
  simp [write]

lemma write_obj_cons (n : String) (v : Json) (ms : List (String × Json)) :
    write .compact l (.obj ((n, v) :: ms)) ++ r = '{' :: (quoted n ++ (':' ::
      (write .compact (l + 1) v ++ (writeMembers .compact (l + 1) ms ++ '}' :: r)))) := by
  simp [write_obj]

lemma writeItems_cons (v : Json) (vs : List Json) :
    writeItems .compact l (v :: vs) ++ r =
      ',' :: (write .compact l v ++ (writeItems .compact l vs ++ r)) := by
  simp [writeItems]

lemma writeMembers_cons (n : String) (v : Json) (ms : List (String × Json)) :
    writeMembers .compact l ((n, v) :: ms) ++ r =
      ',' :: (quoted n ++ (':' :: (write .compact l v ++ (writeMembers .compact l ms ++ r)))) := by
  simp [writeMembers]

lemma stops_items (vs : List Json) (r : List Char) :
    Stops (writeItems .compact l vs ++ ']' :: r) := by
  cases vs with
  | nil => exact stops_of_mem (by simp) r
  | cons v vs =>
    rw [writeItems_cons]
    exact stops_of_mem (by simp) _

lemma stops_members (ms : List (String × Json)) (r : List Char) :
    Stops (writeMembers .compact l ms ++ '}' :: r) := by
  cases ms with
  | nil => exact stops_of_mem (by simp) r
  | cons m ms =>
    rw [writeMembers_cons]
    exact stops_of_mem (by simp) _

lemma write_ne_bracket (v : Json) : write .compact l v ++ r ≠ ']' :: r' := by
  intro h
  have hv := sort_write .compact l v
  cases hc : write .compact l v with
  | nil => simp [hc] at hv
  | cons c cs =>
    rw [hc] at hv h
    obtain rfl : c = ']' := (List.cons.inj h).1
    have hm : sort ']' = v.mark := Option.some.inj hv
    have hs := ofSort_mark v
    rw [← hm] at hs
    obtain ⟨t, ht, -⟩ : ∃ t, _ ∧ Tells t v := hs
    have := sort_of_scans (ht l)
    rw [hc] at this
    simp [sort, isDigit] at this

lemma write_inj_null {v w : Json} (hv : v.mark = 'n')
    (h : write .compact l v ++ r = write .compact k w ++ r') : v.printed = w.printed ∧ r = r' := by
  have hw := ofSort_of_write h
  have hs := ofSort_mark v
  rw [hv] at hw hs
  rw [hs.2, hw.2] at h
  exact ⟨hs.1.trans hw.1.symm, List.append_cancel_left h⟩

lemma write_inj_number {v w : Json} (hv : v.mark = '0') (hr : Stops r) (hr' : Stops r')
    (h : write .compact l v ++ r = write .compact k w ++ r') : v.printed = w.printed ∧ r = r' := by
  have hw := ofSort_of_write h
  have hs := ofSort_mark v
  rw [hv] at hw hs
  obtain ⟨t, ht, htv⟩ : ∃ t, _ ∧ Tells t v := hs
  obtain ⟨u, hu, huw⟩ : ∃ u, _ ∧ Tells u w := hw
  obtain ⟨rfl, hrr⟩ := (ht l).unique (hu k) hr hr' h
  exact ⟨by rw [htv.unique huw], hrr⟩

mutual

theorem write_inj : ∀ (v w : Json) {l k : ℕ} {r r' : List Char}, Stops r → Stops r' →
    write .compact l v ++ r = write .compact k w ++ r' → v.printed = w.printed ∧ r = r'
  | .null, w, l, k, r, r', hr, hr', h => write_inj_null rfl h
  | .unreadable, w, l, k, r, r', hr, hr', h => write_inj_null rfl h
  | .bool true, w, l, k, r, r', hr, hr', h => by
    obtain rfl : w = .bool true := ofSort_of_write h
    exact ⟨rfl, List.append_cancel_left h⟩
  | .bool false, w, l, k, r, r', hr, hr', h => by
    obtain rfl : w = .bool false := ofSort_of_write h
    exact ⟨rfl, List.append_cancel_left h⟩
  | .int z, w, l, k, r, r', hr, hr', h => write_inj_number rfl hr hr' h
  | .float x, w, l, k, r, r', hr, hr', h => by
    by_cases hx : x.isFinite = true
    · exact write_inj_number (if_pos hx) hr hr' h
    · exact write_inj_null (if_neg hx) h
  | .str s, w, l, k, r, r', hr, hr', h => by
    obtain ⟨t, rfl⟩ : ∃ t, w = .str t := ofSort_of_write h
    obtain ⟨rfl, hrr⟩ := quoted_inj h
    exact ⟨rfl, hrr⟩
  | .arr [], w, l, k, r, r', hr, hr', h => by
    obtain ⟨ws, rfl⟩ : ∃ ws, w = .arr ws := ofSort_of_write h
    cases ws with
    | nil => exact ⟨rfl, List.append_cancel_left h⟩
    | cons w ws =>
      rw [write_arr_cons] at h
      exact absurd (List.cons.inj h).2.symm (write_ne_bracket w)
  | .arr (v :: vs), w, l, k, r, r', hr, hr', h => by
    obtain ⟨ws, rfl⟩ : ∃ ws, w = .arr ws := ofSort_of_write h
    rw [write_arr_cons] at h
    cases ws with
    | nil => exact absurd (List.cons.inj h).2 (write_ne_bracket v)
    | cons w ws =>
      rw [write_arr_cons] at h
      obtain ⟨hv, h⟩ := write_inj v w (stops_items vs r) (stops_items ws r') (List.cons.inj h).2
      obtain ⟨hvs, hrr⟩ := writeItems_inj vs ws h
      exact ⟨by rw [printed, printedItems, hv, hvs]; rfl, hrr⟩
  | .obj [], w, l, k, r, r', hr, hr', h => by
    obtain ⟨ms, rfl⟩ : ∃ ms, w = .obj ms := ofSort_of_write h
    cases ms with
    | nil => exact ⟨rfl, List.append_cancel_left h⟩
    | cons m ms =>
      rw [write_obj_cons, quoted_append] at h
      cases h
  | .obj ((n, v) :: ms), w, l, k, r, r', hr, hr', h => by
    obtain ⟨ns, rfl⟩ : ∃ ns, w = .obj ns := ofSort_of_write h
    rw [write_obj_cons] at h
    cases ns with
    | nil =>
      rw [quoted_append] at h
      cases h
    | cons m ns =>
      rw [write_obj_cons] at h
      obtain ⟨hn, h⟩ := quoted_inj (List.cons.inj h).2
      obtain ⟨hv, h⟩ := write_inj v m.2 (stops_members ms r) (stops_members ns r')
        (List.cons.inj h).2
      obtain ⟨hms, hrr⟩ := writeMembers_inj ms ns h
      exact ⟨by rw [printed, printedMembers, hn, hv, hms]; rfl, hrr⟩

theorem writeItems_inj : ∀ (vs ws : List Json) {l k : ℕ} {r r' : List Char},
    writeItems .compact l vs ++ ']' :: r = writeItems .compact k ws ++ ']' :: r' →
      printedItems vs = printedItems ws ∧ r = r'
  | [], ws, l, k, r, r', h => by
    cases ws with
    | nil => exact ⟨rfl, (List.cons.inj h).2⟩
    | cons w ws =>
      rw [writeItems_cons] at h
      cases h
  | v :: vs, ws, l, k, r, r', h => by
    rw [writeItems_cons] at h
    cases ws with
    | nil => cases h
    | cons w ws =>
      rw [writeItems_cons] at h
      obtain ⟨hv, h⟩ := write_inj v w (stops_items vs r) (stops_items ws r') (List.cons.inj h).2
      obtain ⟨hvs, hrr⟩ := writeItems_inj vs ws h
      exact ⟨by rw [printedItems, printedItems, hv, hvs], hrr⟩

theorem writeMembers_inj : ∀ (ms ns : List (String × Json)) {l k : ℕ} {r r' : List Char},
    writeMembers .compact l ms ++ '}' :: r = writeMembers .compact k ns ++ '}' :: r' →
      printedMembers ms = printedMembers ns ∧ r = r'
  | [], ns, l, k, r, r', h => by
    cases ns with
    | nil => exact ⟨rfl, (List.cons.inj h).2⟩
    | cons n ns =>
      rw [writeMembers_cons] at h
      cases h
  | (n, v) :: ms, ns, l, k, r, r', h => by
    rw [writeMembers_cons] at h
    cases ns with
    | nil => cases h
    | cons m ns =>
      rw [writeMembers_cons] at h
      obtain ⟨hn, h⟩ := quoted_inj (List.cons.inj h).2
      obtain ⟨hv, h⟩ := write_inj v m.2 (stops_members ms r) (stops_members ns r')
        (List.cons.inj h).2
      obtain ⟨hms, hrr⟩ := writeMembers_inj ms ns h
      exact ⟨by rw [printedMembers, printedMembers, hn, hv, hms], hrr⟩

end

end

mutual

lemma write_printed (sp : Spacing) : ∀ (v : Json) (l : ℕ), write sp l v.printed = write sp l v
  | .null, l | .bool _, l | .int _, l | .str _, l => rfl
  | .unreadable, l => rfl
  | .float x, l => by
    by_cases hx : x.isFinite = true
    · rw [printed, if_pos hx]
    · rw [printed, if_neg hx, write, write, floatChars, if_neg hx]
  | .arr [], l => rfl
  | .arr (v :: vs), l => by
    rw [printed, printedItems, write, write, write_printed sp v, writeItems_printed sp vs]
  | .obj [], l => rfl
  | .obj ((n, v) :: ms), l => by
    rw [printed, printedMembers, write, write, write_printed sp v, writeMembers_printed sp ms]

lemma writeItems_printed (sp : Spacing) :
    ∀ (vs : List Json) (l : ℕ), writeItems sp l (printedItems vs) = writeItems sp l vs
  | [], l => rfl
  | v :: vs, l => by
    rw [printedItems, writeItems, writeItems, write_printed sp v, writeItems_printed sp vs]

lemma writeMembers_printed (sp : Spacing) : ∀ (ms : List (String × Json)) (l : ℕ),
    writeMembers sp l (printedMembers ms) = writeMembers sp l ms
  | [], l => rfl
  | (n, v) :: ms, l => by
    rw [printedMembers, writeMembers, writeMembers, write_printed sp v,
      writeMembers_printed sp ms]

end

theorem compact_eq_iff {v w : Json} : v.compact = w.compact ↔ v.printed = w.printed := by
  simp only [compact]
  rw [String.ofList_inj]
  constructor
  · intro h
    exact (write_inj v w Stops.nil Stops.nil (congrArg (· ++ []) h)).1
  · intro h
    rw [← write_printed, h, write_printed]

end ColourPipeline.Json
