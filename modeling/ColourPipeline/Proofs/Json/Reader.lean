import ColourPipeline.Json.Record
import ColourPipeline.Proofs.Json.Writer

namespace ColourPipeline.Json

open Decimal Numeral

namespace Numeral

def fold (n : ℕ) (cs : List Char) : ℕ := cs.foldl (fun n c => 10 * n + digitValue c) n

lemma le_fold (n : ℕ) (cs : List Char) : n ≤ fold n cs := by
  induction cs generalizing n with
  | nil => exact le_rfl
  | cons c cs ih => exact (by omega : n ≤ 10 * n + digitValue c).trans (ih _)

lemma takeIn_eq {n : ℕ} {cs : List Char} (h : fold n cs < Width.long) :
    takeIn n cs = (fold n cs, 0) := by
  induction cs generalizing n with
  | nil => rfl
  | cons c cs ih =>
    have hn : 10 * n + digitValue c < Width.long := (le_fold _ cs).trans_lt h
    rw [takeIn, if_pos hn, ih h]
    rfl

lemma takeIn_digits {n : ℕ} (h : n < Width.long) : takeIn 0 (digits n) = (n, 0) := by
  have hf : fold 0 (digits n) = n := ofDigits_digits n
  rw [takeIn_eq (by rwa [hf]), hf]

lemma value_int {z : ℤ} (hl : -(2 ^ 63) ≤ z) (hu : z < 2 ^ 64) :
    value ⟨decide (z < 0), digits z.natAbs, none, none⟩ = .int z := by
  have hlong : Width.long = 2 ^ 64 := rfl
  have ht : takeIn 0 (digits z.natAbs) = (z.natAbs, 0) := takeIn_digits (by omega)
  rw [value, ht]
  dsimp only
  rw [if_neg (by simp)]
  by_cases hz : z < 0
  · rw [decide_eq_true hz, if_neg (by simp), if_neg (by omega)]
    congr 1
    omega
  · rw [decide_eq_false hz, if_pos (by simp)]
    congr 1
    omega

def IsDouble (v : Json) : Prop := v = .unreadable ∨ ∃ x, v = .float x

lemma isDouble_scaled (t : Numeral) (n : ℕ) (power : ℤ) : IsDouble (t.scaled n power) := by
  rw [scaled]
  split
  · exact .inr ⟨_, rfl⟩
  · exact .inl rfl

lemma isDouble_value {t : Numeral} (h : t.fraction.isSome ∨ t.exponent.isSome) :
    IsDouble t.value := by
  obtain ⟨minus, whole, fraction, exponent⟩ := t
  simp only [value]
  split
  · simp at h
  · split
    · exact isDouble_scaled _ _ _
    · split
      · exact isDouble_scaled _ _ _
      · split
        · exact .inr ⟨_, rfl⟩
        · exact .inl rfl

end Numeral

def ReadsBack (x : Float) : Prop := (parse (compact (.float x))).bind float? = some x

def Spacing.Blank (sp : Spacing) : Prop :=
  (∀ level, (sp.line level).all isSpace = true) ∧ sp.afterColon.all isSpace = true

lemma Spacing.blank_compact : Spacing.compact.Blank := ⟨fun _ => rfl, rfl⟩

lemma Spacing.blank_pretty : Spacing.pretty.Blank :=
  ⟨fun _ => by simp [Spacing.pretty, isSpace], rfl⟩

lemma skip_append {blanks : List Char} (h : blanks.all isSpace = true) (cs : List Char) :
    skip (blanks ++ cs) = skip cs :=
  List.dropWhile_append_of_pos (List.all_eq_true.1 h)

lemma skip_cons {c : Char} (h : isSpace c = false) (cs : List Char) : skip (c :: cs) = c :: cs := by
  simp [skip, h]

lemma assemble_cons {n : ℕ} (hh : isHigh n = false) (hl : isLow n = false) (ns : List ℕ) :
    assemble (n :: ns) = (assemble ns).map (Char.ofNat n :: ·) := by
  cases ns <;> simp [assemble, hh, hl]

lemma assemble_toNat (cs : List Char) : assemble (cs.map Char.toNat) = some cs := by
  induction cs with
  | nil => rfl
  | cons c cs ih =>
    have hv : c.toNat < 0xD800 ∨ 0xDFFF < c.toNat ∧ c.toNat < 0x110000 := c.valid
    have hh : isHigh c.toNat = false := by
      simp only [isHigh, Bool.and_eq_false_iff, decide_eq_false_iff_not]
      omega
    have hl : isLow c.toNat = false := by
      simp only [isLow, Bool.and_eq_false_iff, decide_eq_false_iff_not]
      omega
    rw [List.map_cons, assemble_cons hh hl, ih, Option.map_some, Char.ofNat_toNat]

lemma ofUnits_toNat (s : String) : ofUnits (s.toList.map Char.toNat) = .str s := by
  rw [ofUnits, assemble_toNat]
  simp

lemma mapM_eq_some_map {α β : Type} {f : α → Option β} {g : α → β} {xs : List α}
    (h : ∀ x ∈ xs, f x = some (g x)) : xs.mapM f = some (xs.map g) := by
  induction xs with
  | nil => rfl
  | cons x xs ih =>
    obtain ⟨hx, hxs⟩ := List.forall_mem_cons.1 h
    rw [List.mapM_cons, hx, ih hxs]
    rfl

lemma ofMembers_some (ms : List (String × Json)) :
    ofMembers (ms.map fun (k, v) => (some k, v)) = .obj ms := by
  have h : (ms.map fun (k, v) => ((some k, v) : Member)).mapM
      (fun (k, v) => k.map fun k => (k, v)) = some (ms.map id) := by
    rw [List.mapM_map]
    exact mapM_eq_some_map fun _ _ => rfl
  rw [ofMembers, h, List.map_id]

section Values

variable {fuel : ℕ} {cs body rest : List Char}

lemma readValue_quote (h : skip cs = '"' :: body) : readValue (fuel + 1) cs =
    (scanText body).map fun (ns, rest) => (ofUnits ns, rest) := by
  rw [readValue, h]
  rfl

lemma readValue_items (h : skip cs = '[' :: body) (hb : ∀ rest, skip body ≠ ']' :: rest) :
    readValue (fuel + 1) cs =
      (readItems fuel (skip body)).map fun (vs, rest) => (.arr vs, rest) := by
  simp only [readValue, h]

lemma readValue_members (h : skip cs = '{' :: body) (hb : ∀ rest, skip body ≠ '}' :: rest) :
    readValue (fuel + 1) cs =
      (readMembers fuel (skip body)).map fun (ms, rest) => (ofMembers ms, rest) := by
  simp only [readValue, h]

lemma readValue_number {number : List Char} {t : Numeral} (ht : Scans number t)
    (hr : Stops rest) (h : skip cs = number ++ rest) :
    readValue (fuel + 1) cs = some (t.value, rest) := by
  have hs := sort_of_scans ht
  cases number with
  | nil => cases hs
  | cons c number =>
    have hc : c ∉ ['n', 't', 'f', '"', '[', '{'] := by
      intro hc
      have h0 : sort c = '0' := Option.some.inj hs
      revert h0
      fin_cases hc <;> decide
    simp only [List.mem_cons, List.not_mem_nil, not_or, or_false] at hc
    have hn := ht rest hr
    rw [readValue, h]
    rw [List.cons_append] at hn ⊢
    split <;> simp_all

variable {v : Json} {vs : List Json} {ms : List Member}

lemma readItems_last (hv : readValue fuel cs = some (v, body)) (h : skip body = ']' :: rest) :
    readItems (fuel + 1) cs = some ([v], rest) := by
  simp [readItems, hv, h]

lemma readItems_more {more : List Char} (hv : readValue fuel cs = some (v, body))
    (h : skip body = ',' :: more) (hvs : readItems fuel more = some (vs, rest)) :
    readItems (fuel + 1) cs = some (v :: vs, rest) := by
  simp [readItems, hv, h, hvs]

lemma readMembers_last {k : String} {value : List Char} (hk : skip cs = quoted k ++ ':' :: value)
    (hv : readValue fuel value = some (v, body)) (h : skip body = '}' :: rest) :
    readMembers (fuel + 1) cs = some ([(some k, v)], rest) := by
  have hc := skip_cons (c := ':') rfl value
  rw [quoted_append] at hk
  simp [readMembers, hk, scanText_body, hc, hv, h, assemble_toNat]

lemma readMembers_more {k : String} {value more : List Char}
    (hk : skip cs = quoted k ++ ':' :: value) (hv : readValue fuel value = some (v, body))
    (h : skip body = ',' :: more) (hms : readMembers fuel more = some (ms, rest)) :
    readMembers (fuel + 1) cs = some ((some k, v) :: ms, rest) := by
  have hc := skip_cons (c := ':') rfl value
  rw [quoted_append] at hk
  simp [readMembers, hk, scanText_body, hc, hv, h, hms, assemble_toNat]

end Values

lemma mark_mem (v : Json) : v.mark ∈ ['n', 't', 'f', '0', '"', '[', '{'] := by
  cases v with
  | bool b => cases b <;> simp [mark]
  | float x => by_cases hx : x.isFinite = true <;> simp [mark, hx]
  | _ => simp [mark]

section Written

variable {sp : Spacing}

lemma exists_write_append (sp : Spacing) (l : ℕ) (v : Json) (r : List Char) :
    ∃ c cs, write sp l v ++ r = c :: cs ∧ isSpace c = false ∧ c ≠ ']' := by
  have hs := sort_write sp l v
  cases h : write sp l v with
  | nil => exact absurd h (write_ne_nil sp l v)
  | cons c cs =>
    have hc : sort c = v.mark := by simpa [h] using hs
    have hm := hc ▸ mark_mem v
    have hne {d : Char} (hd : d ∈ [' ', '\n', '\t', '\r', ']']) : c ≠ d := by
      rintro rfl
      revert hm
      fin_cases hd <;> decide
    refine ⟨c, cs ++ r, rfl, ?_, hne (by simp)⟩
    simp [isSpace, hne]

lemma skip_write (sp : Spacing) (l : ℕ) (v : Json) (r : List Char) :
    skip (write sp l v ++ r) = write sp l v ++ r := by
  obtain ⟨c, cs, h, hc, -⟩ := exists_write_append sp l v r
  rw [h, skip_cons hc]

lemma skip_quoted (s : String) (r : List Char) : skip (quoted s ++ r) = quoted s ++ r := by
  rw [quoted_append]
  exact skip_cons rfl _

lemma stops_blank {blanks r : List Char} (hb : blanks.all isSpace = true) (hr : Stops r) :
    Stops (blanks ++ r) := by
  cases blanks with
  | nil => exact hr
  | cons c cs =>
    have hc : isSpace c = true := (Bool.and_eq_true_iff.1 hb).1
    intro d hd
    obtain rfl : c = d := by simpa using hd
    simp only [isSpace, Bool.or_eq_true, beq_iff_eq] at hc
    rcases hc with ((rfl | rfl) | rfl) | rfl <;> decide

lemma write_arr_append (l : ℕ) (v : Json) (vs : List Json) (r : List Char) :
    write sp l (.arr (v :: vs)) ++ r = '[' :: (sp.line (l + 1) ++ (write sp (l + 1) v ++
      (writeItems sp (l + 1) vs ++ (sp.line l ++ ']' :: r)))) := by
  simp [write]

lemma write_obj_append (l : ℕ) (n : String) (v : Json) (ms : List (String × Json))
    (r : List Char) : write sp l (.obj ((n, v) :: ms)) ++ r =
      '{' :: (sp.line (l + 1) ++ (quoted n ++ ':' :: (sp.afterColon ++ (write sp (l + 1) v ++
        (writeMembers sp (l + 1) ms ++ (sp.line l ++ '}' :: r)))))) := by
  simp [write]

lemma writeItems_append (l : ℕ) (v : Json) (vs : List Json) (r : List Char) :
    writeItems sp l (v :: vs) ++ r =
      ',' :: (sp.line l ++ (write sp l v ++ (writeItems sp l vs ++ r))) := by
  simp [writeItems]

lemma writeMembers_append (l : ℕ) (n : String) (v : Json) (ms : List (String × Json))
    (r : List Char) : writeMembers sp l ((n, v) :: ms) ++ r =
      ',' :: (sp.line l ++ (quoted n ++ ':' :: (sp.afterColon ++ (write sp l v ++
        (writeMembers sp l ms ++ r))))) := by
  simp [writeMembers]

lemma stops_items_blank (sp : Spacing) (l : ℕ) {blanks : List Char}
    (hb : blanks.all isSpace = true) (vs : List Json) (r : List Char) :
    Stops (writeItems sp l vs ++ (blanks ++ ']' :: r)) := by
  cases vs with
  | nil => exact @stops_blank blanks _ hb (stops_of_mem (by simp) r)
  | cons v vs =>
    rw [writeItems_append]
    exact stops_of_mem (by simp) _

lemma stops_members_blank (sp : Spacing) (l : ℕ) {blanks : List Char}
    (hb : blanks.all isSpace = true) (ms : List (String × Json)) (r : List Char) :
    Stops (writeMembers sp l ms ++ (blanks ++ '}' :: r)) := by
  cases ms with
  | nil => exact @stops_blank blanks _ hb (stops_of_mem (by simp) r)
  | cons m ms =>
    rw [writeMembers_append]
    exact stops_of_mem (by simp) _

end Written

mutual

def Faithful : Json → Prop
  | .unreadable => False
  | .int z => -(2 ^ 63) ≤ z ∧ z < 2 ^ 64
  | .float x => ReadsBack x
  | .arr vs => FaithfulItems vs
  | .obj ms => FaithfulMembers ms
  | _ => True

def FaithfulItems : List Json → Prop
  | [] => True
  | v :: vs => v.Faithful ∧ FaithfulItems vs

def FaithfulMembers : List (String × Json) → Prop
  | [] => True
  | (_, v) :: ms => v.Faithful ∧ FaithfulMembers ms

end

lemma parse_of_readValue {cs : List Char} {v : Json}
    (h : readValue (2 * cs.length + 1) cs = some (v, [])) : parse (String.ofList cs) = some v := by
  rw [parse, String.toList_ofList, h]
  rfl

lemma ReadsBack.exists_scans {x : Float} (h : ReadsBack x) :
    ∃ t : Numeral, Scans (floatChars x) t ∧ t.value = .float x := by
  by_cases hx : x.isFinite = true
  · obtain ⟨t, ht, hi, -⟩ := Json.exists_scans hx
    refine ⟨t, ht, ?_⟩
    have hc : skip (floatChars x) = floatChars x ++ [] := by
      rw [List.append_nil]
      have hs := skip_write .compact 0 (.float x) []
      rwa [write, List.append_nil] at hs
    have hp : parse (compact (.float x)) = some t.value := by
      rw [compact, write]
      exact parse_of_readValue (readValue_number ht Stops.nil hc)
    rw [ReadsBack, hp, Option.bind_some] at h
    rcases isDouble_value hi with hv | ⟨y, hv⟩
    · rw [hv] at h
      cases h
    · rw [hv] at h ⊢
      exact congrArg Json.float (Option.some.inj h)
  · have hp : parse (compact (.float x)) = some .null := by
      rw [compact, write, floatChars, if_neg hx]
      exact parse_of_readValue rfl
    rw [ReadsBack, hp] at h
    cases h

mutual

theorem readValue_write {sp : Spacing} (hb : sp.Blank) : ∀ (v : Json), v.Faithful →
    ∀ {l fuel : ℕ} {cs rest : List Char}, Stops rest → skip cs = write sp l v ++ rest →
      2 * (write sp l v).length ≤ fuel → readValue fuel cs = some (v, rest)
  | v, hv, l, 0, cs, rest, hr, h, hf => by
    have hne := write_ne_nil sp l v
    rw [← List.length_pos_iff] at hne
    omega
  | .null, hv, l, fuel + 1, cs, rest, hr, h, hf => by
    rw [readValue, h]
    rfl
  | .bool true, hv, l, fuel + 1, cs, rest, hr, h, hf => by
    rw [readValue, h]
    rfl
  | .bool false, hv, l, fuel + 1, cs, rest, hr, h, hf => by
    rw [readValue, h]
    rfl
  | .int z, hv, l, fuel + 1, cs, rest, hr, h, hf => by
    rw [readValue_number (scans_int z) hr h, value_int hv.1 hv.2]
  | .float x, hv, l, fuel + 1, cs, rest, hr, h, hf => by
    obtain ⟨t, ht, hx⟩ := ReadsBack.exists_scans hv
    rw [readValue_number ht hr h, hx]
  | .str s, hv, l, fuel + 1, cs, rest, hr, h, hf => by
    rw [write, quoted_append] at h
    rw [readValue_quote h, scanText_body, Option.map_some]
    exact congrArg (fun v => some (v, rest)) (ofUnits_toNat s)
  | .arr [], hv, l, fuel + 1, cs, rest, hr, h, hf => by
    rw [readValue, h]
    rfl
  | .arr (v :: vs), hv, l, fuel + 1, cs, rest, hr, h, hf => by
    rw [write, List.length_cons] at hf
    simp only [List.length_append] at hf
    rw [write_arr_append] at h
    have hskip := (skip_append (hb.1 (l + 1)) _).trans (skip_write sp (l + 1) v
      (writeItems sp (l + 1) vs ++ (sp.line l ++ ']' :: rest)))
    rw [readValue_items h ?_, hskip,
      readItems_write hb v vs hv.1 hv.2 (hb.1 l) (skip_write sp _ _ _) (by omega)]
    · rfl
    · intro r hr
      obtain ⟨c, body, hc, -, hne⟩ := exists_write_append sp (l + 1) v
        (writeItems sp (l + 1) vs ++ (sp.line l ++ ']' :: rest))
      rw [hskip, hc] at hr
      exact hne (List.cons.inj hr).1
  | .obj [], hv, l, fuel + 1, cs, rest, hr, h, hf => by
    rw [readValue, h]
    rfl
  | .obj ((n, v) :: ms), hv, l, fuel + 1, cs, rest, hr, h, hf => by
    rw [write, List.length_cons] at hf
    simp only [List.length_append, List.length_cons] at hf
    rw [write_obj_append] at h
    have hskip := (skip_append (hb.1 (l + 1)) _).trans (skip_quoted n (':' :: (sp.afterColon ++
      (write sp (l + 1) v ++ (writeMembers sp (l + 1) ms ++ (sp.line l ++ '}' :: rest))))))
    rw [readValue_members h ?_, hskip,
      readMembers_write hb n v ms hv.1 hv.2 (hb.1 l) (skip_quoted _ _) (by omega), Option.map_some]
    · exact congrArg (fun v => some (v, rest)) (ofMembers_some ((n, v) :: ms))
    · intro r hr
      rw [hskip, quoted_append] at hr
      cases hr

theorem readItems_write {sp : Spacing} (hb : sp.Blank) : ∀ (v : Json) (vs : List Json),
    v.Faithful → FaithfulItems vs → ∀ {l fuel : ℕ} {cs blanks rest : List Char},
      blanks.all isSpace = true →
      skip cs = write sp l v ++ (writeItems sp l vs ++ (blanks ++ ']' :: rest)) →
      2 * ((write sp l v).length + (writeItems sp l vs).length) < fuel →
      readItems fuel cs = some (v :: vs, rest)
  | v, [], hv, hvs, l, fuel + 1, cs, blanks, rest, hbl, h, hf => by
    have hread : readValue fuel cs = some (v, _) :=
      readValue_write hb v hv (stops_items_blank sp l hbl [] rest) h (by omega)
    exact readItems_last hread ((skip_append hbl _).trans (skip_cons rfl rest))
  | v, w :: ws, hv, hvs, l, fuel + 1, cs, blanks, rest, hbl, h, hf => by
    have hread : readValue fuel cs = some (v, _) :=
      readValue_write hb v hv (stops_items_blank sp l hbl (w :: ws) rest) h (by omega)
    rw [writeItems_append] at hread
    rw [writeItems, List.length_cons, List.length_append, List.length_append] at hf
    exact readItems_more hread (skip_cons rfl _) (readItems_write hb w ws hvs.1 hvs.2 hbl
      ((skip_append (hb.1 l) _).trans (skip_write sp l w _)) (by omega))

theorem readMembers_write {sp : Spacing} (hb : sp.Blank) :
    ∀ (n : String) (v : Json) (ms : List (String × Json)), v.Faithful → FaithfulMembers ms →
      ∀ {l fuel : ℕ} {cs blanks rest : List Char}, blanks.all isSpace = true →
      skip cs = quoted n ++ ':' :: (sp.afterColon ++ (write sp l v ++
        (writeMembers sp l ms ++ (blanks ++ '}' :: rest)))) →
      2 * ((write sp l v).length + (writeMembers sp l ms).length) < fuel →
      readMembers fuel cs = some (((n, v) :: ms).map fun (k, v) => (some k, v), rest)
  | n, v, [], hv, hms, l, fuel + 1, cs, blanks, rest, hbl, h, hf => by
    have hread : readValue fuel _ = some (v, _) :=
      readValue_write hb v hv (stops_members_blank sp l hbl [] rest)
        ((skip_append hb.2 _).trans (skip_write sp l v _)) (by omega)
    exact readMembers_last h hread ((skip_append hbl _).trans (skip_cons rfl rest))
  | n, v, (m, w) :: ms, hv, hms, l, fuel + 1, cs, blanks, rest, hbl, h, hf => by
    have hread : readValue fuel _ = some (v, _) :=
      readValue_write hb v hv (stops_members_blank sp l hbl ((m, w) :: ms) rest)
        ((skip_append hb.2 _).trans (skip_write sp l v _)) (by omega)
    rw [writeMembers_append] at h hread
    rw [writeMembers, List.length_cons] at hf
    simp only [List.length_append, List.length_cons] at hf
    exact readMembers_more h hread (skip_cons rfl _) (readMembers_write hb m w ms hms.1 hms.2 hbl
      ((skip_append (hb.1 l) _).trans (skip_quoted m _)) (by omega))

end

theorem parse_write {sp : Spacing} (hb : sp.Blank) {v : Json} (hv : v.Faithful) (l : ℕ) :
    parse (String.ofList (write sp l v)) = some v := by
  have hs := skip_write sp l v []
  rw [List.append_nil] at hs
  apply parse_of_readValue
  refine readValue_write hb v hv Stops.nil (l := l) ?_ (by omega)
  rw [hs, List.append_nil]

end ColourPipeline.Json
