import ColourPipeline.Proofs.Registration
import ColourPipeline.Proofs.Selection

namespace ColourPipeline

namespace Text

variable {p : Char → Bool} {c : Char} {cs : List Char}

lemma dropEndWhile_append_cons (h : p c = false) (as bs : List Char) :
    dropEndWhile p (as ++ c :: bs) = as ++ c :: dropEndWhile p bs := by
  have hr : (as ++ c :: bs).reverse = bs.reverse ++ c :: as.reverse := by simp
  rw [dropEndWhile, dropEndWhile, hr, dropWhile_append_cons h]
  simp

lemma dropEndWhile_isPrefix (p : Char → Bool) (cs : List Char) : dropEndWhile p cs <+: cs :=
  List.rdropWhile_prefix p cs

def Flush (cs : List Char) : Prop := ∀ c ∈ cs.head?, isBlank c = false

lemma Flush.dropWhile (h : Flush cs) : cs.dropWhile isBlank = cs := by
  cases cs with
  | nil => rfl
  | cons c cs => rw [List.dropWhile_cons, h c rfl]; rfl

lemma Flush.trim (h : Flush cs) : trim cs = dropEndWhile isBlank cs := by
  rw [Text.trim, h.dropWhile]

lemma Flush.of_isPrefix {bs : List Char} (h : Flush cs) (hp : bs <+: cs) : Flush bs := by
  intro c hc
  cases bs with
  | nil => cases hc
  | cons b bs =>
    obtain ⟨as, rfl⟩ := hp
    exact h c hc

lemma flush_trim (cs : List Char) : Flush (Text.trim cs) := by
  refine Flush.of_isPrefix (fun c hc => ?_) (dropEndWhile_isPrefix isBlank (cs.dropWhile isBlank))
  have hn := List.head?_dropWhile_not isBlank cs
  rw [Option.mem_def.1 hc] at hn
  simpa using hn

end Text

namespace Path

open Text

lemma segmentsOf_append (as bs : List Char) :
    segmentsOf (as ++ '/' :: bs) = segmentsOf as ++ segmentsOf bs := by
  rw [segmentsOf, split_append, List.map_append, List.filter_append]
  rfl

lemma segmentsOf_nil : segmentsOf [] = [] := rfl

lemma segmentsOf_slash (cs : List Char) : segmentsOf ('/' :: cs) = segmentsOf cs :=
  segmentsOf_append [] cs

lemma segmentsOf_dropEndWhile (cs : List Char) :
    segmentsOf (dropEndWhile (· == '/') cs) = segmentsOf cs := by
  induction cs using List.reverseRecOn with
  | nil => rfl
  | append_singleton cs c ih =>
    by_cases hc : c = '/'
    · subst hc
      rw [segmentsOf_append, segmentsOf_nil, List.append_nil, ← ih]
      exact congrArg segmentsOf (List.rdropWhile_concat_pos _ cs '/' rfl)
    · exact congrArg segmentsOf (List.rdropWhile_concat_neg _ cs c (by simpa using hc))

lemma segmentsOf_tail (cs : List Char) :
    segmentsOf (dropEndWhile isBlank (cs.dropWhile (· == '/'))) =
      segmentsOf (dropEndWhile isBlank cs) := by
  induction cs with
  | nil => rfl
  | cons c cs ih =>
    by_cases hc : c = '/'
    · subst hc
      have hb : dropEndWhile isBlank ('/' :: cs) = '/' :: dropEndWhile isBlank cs :=
        dropEndWhile_append_cons (by decide) [] cs
      rw [hb, segmentsOf_slash, ← ih]
      rfl
    · rw [List.dropWhile_cons_of_neg (by simpa using hc)]

lemma segments_parse (text : String) :
    (parse text).segments = segmentsOf (trim text.toList) := by
  rw [segments, parse, ofChars, String.toList_ofList]

lemma segments_join {p : Path} (hp : Flush p.text.toList) {tail : String}
    (ht : Flush tail.toList) : (p.join tail).segments = p.segments ++ (parse tail).segments := by
  set base := dropEndWhile (· == '/') p.text.toList with hbase
  have hb : base.dropWhile isBlank = base := (hp.of_isPrefix (dropEndWhile_isPrefix _ _)).dropWhile
  have htrim (cs : List Char) :
      trim (base ++ '/' :: cs) = base ++ '/' :: dropEndWhile isBlank cs := by
    rw [trim, dropWhile_append_cons (by decide), hb, dropEndWhile_append_cons (by decide)]
  calc (p.join tail).segments
      = segmentsOf (trim (base ++ '/' :: tail.toList.dropWhile (· == '/'))) := by
        rw [join, ofChars, segments, String.toList_ofList]
    _ = segmentsOf base ++
          segmentsOf (dropEndWhile isBlank (tail.toList.dropWhile (· == '/'))) := by
        rw [htrim, segmentsOf_append]
    _ = p.segments ++ (parse tail).segments := by
        rw [hbase, segmentsOf_dropEndWhile, segmentsOf_tail, segments_parse, ht.trim, segments]

lemma selects_of_segments {p q r : Path} {back : List Segment}
    (hr : r.segments = q.segments ++ back) (h : p.selects q = true) : p.selects r = true := by
  obtain ⟨i, hi, hfit⟩ := selects_iff.1 h
  have hsame : Enriched q.segments q.segments := List.forall₂_same.2 fun s _ => .refl s.keys
  have hkept : FitsAt p.segments ([] ++ q.segments ++ back) (([] : List Segment).length + i) :=
    hfit.enriched hsame
  rw [List.nil_append, ← hr, List.length_nil, Nat.zero_add] at hkept
  exact selects_iff.2 ⟨i, hi, hkept⟩

/-- A path with a tail has the segments of both, is selected by whatever selects the path alone,
and where the tail is a key that is the key of options filed under it. -/
theorem join_parts (base : String) :
    (∀ tail : String, Flush tail.toList →
      ((parse base).join tail).segments = (parse base).segments ++ (parse tail).segments ∧
      ∀ p : Path, p.selects (parse base) = true → p.selects ((parse base).join tail) = true) ∧
    ∀ key : String, IsKey key.toList → optionKey ((parse base).join key).text = key := by
  refine ⟨fun tail ht => ?_, fun key hk => optionKey_join (parse base) hk⟩
  have hbase : Flush (parse base).text.toList := by
    rw [parse, ofChars, String.toList_ofList]
    exact flush_trim base.toList
  have hs := segments_join hbase ht
  exact ⟨hs, fun p => selects_of_segments hs⟩

theorem join_parts_spaced :
    let path := parse " org//colour/./icc.x // "
    (path.join "//low.gain/ ").segments =
        [⟨["org"]⟩, ⟨["colour"]⟩, ⟨["icc", "x "]⟩, ⟨["low", "gain"]⟩] ∧
      (parse "//colour/icc").selects (path.join "//low.gain/ ") = true ∧
      optionKey (path.join " gain").text = " gain" := by
  obtain ⟨hparts, hkey⟩ := join_parts " org//colour/./icc.x // "
  have hflush : Flush "//low.gain/ ".toList := by
    intro c hc
    obtain rfl : '/' = c := Option.some.inj hc
    decide
  have hselects : (parse "//colour/icc").selects (parse " org//colour/./icc.x // ") = true := by
    decide +kernel
  obtain ⟨hs, hsel⟩ := hparts "//low.gain/ " hflush
  refine ⟨hs.trans (by decide +kernel), hsel _ hselects, hkey " gain" ?_⟩
  exact ⟨by decide, by decide, by decide, by decide⟩

example : ((parse "org").join " gain").segments = [⟨["org"]⟩, ⟨[" gain"]⟩] ∧
    (parse " gain").segments = [⟨["gain"]⟩] := by
  decide +kernel

end Path

end ColourPipeline
