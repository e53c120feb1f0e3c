import ColourPipeline.Host
import Mathlib

namespace ColourPipeline

namespace Bytes

variable {bs cs : Bytes} {offset length : Nat}

def slice? (bs : Bytes) (offset length : Nat) : Option Bytes :=
  if offset + length ≤ bs.length then some (slice bs offset length) else none

def word? (bs : Bytes) (offset : Nat) : Option UInt32 :=
  (slice? bs offset 4).map fun w => UInt32.ofNat (number w)

lemma slice?_of_le (h : offset + length ≤ bs.length) :
    slice? bs offset length = some (slice bs offset length) :=
  if_pos h

lemma word?_of_le (h : offset + 4 ≤ bs.length) : word? bs offset = some (word bs offset) := by
  rw [word?, slice?_of_le h]
  rfl

lemma slice_zero (bs : Bytes) (length : Nat) : slice bs 0 length = bs.take length := rfl

lemma slice_of_begins (hp : bs <+: cs) (h : offset + length ≤ bs.length) :
    slice cs offset length = slice bs offset length := by
  obtain ⟨t, rfl⟩ := hp
  rw [slice, slice, List.drop_append_of_le_length (by omega), List.take_append_of_le_length]
  rw [List.length_drop]
  omega

end Bytes

namespace Profile

variable {bs cs : Bytes} {p : Profile} {f : CodecFault}

def statedSize : Bytes → Nat
  | a :: b :: c :: d :: _ =>
    2 ^ 24 * a.toNat + 2 ^ 16 * b.toNat + 2 ^ 8 * c.toNat + d.toNat
  | _ => 0

structure Sound (bs : Bytes) : Prop where
  header : 128 ≤ bs.length
  signature : Bytes.slice bs 36 4 = Bytes.ofText "acsp"
  holds : 128 ≤ statedSize bs
  whole : statedSize bs ≤ bs.length

/-- What is told of bytes that are no profile: the first of four things amiss. -/
inductive Refused (bs : Bytes) : CodecFault → Prop
  | header (h : bs.length < 128) : Refused bs (.truncated 128 bs.length)
  | signature (h : 128 ≤ bs.length) (hm : Bytes.slice bs 36 4 ≠ Bytes.ofText "acsp") :
    Refused bs .missingSignature
  | holds (h : 128 ≤ bs.length) (hm : Bytes.slice bs 36 4 = Bytes.ofText "acsp")
    (hs : statedSize bs < 128) : Refused bs (.sizeBelowHeader (statedSize bs))
  | whole (h : 128 ≤ bs.length) (hm : Bytes.slice bs 36 4 = Bytes.ofText "acsp")
    (hs : 128 ≤ statedSize bs) (hl : bs.length < statedSize bs) :
    Refused bs (.truncated (statedSize bs) bs.length)

def parse? (bs : Bytes) : Option (Except CodecFault Profile) :=
  if bs.length < headerLength then some (.error (.truncated headerLength bs.length))
  else do
    if (← bs.slice? 36 4) ≠ magic then return .error .missingSignature
    let declared := Bytes.number (← bs.slice? 0 4)
    if declared < headerLength then return .error (.sizeBelowHeader declared)
    if bs.length < declared then return .error (.truncated declared bs.length)
    return .ok ⟨← bs.slice? 0 declared⟩

def version? (p : Profile) : Option (Nat × Nat) := do
  return ((← p.bytes[8]?).toNat, (← p.bytes[9]?).toNat / 16)

def deviceClass? (p : Profile) : Option UInt32 := Bytes.word? p.bytes 12

def colourSpace? (p : Profile) : Option UInt32 := Bytes.word? p.bytes 16

def connectionSpace? (p : Profile) : Option UInt32 := Bytes.word? p.bytes 20

lemma magic_eq : magic = Bytes.ofText "acsp" := by decide +kernel

lemma declaredSize_eq (h : 4 ≤ bs.length) : declaredSize bs = statedSize bs := by
  match bs, h with
  | a :: b :: c :: d :: _, _ =>
    simp only [declaredSize, statedSize, Bytes.number, List.take_succ_cons, List.take_zero,
      List.foldl_cons, List.foldl_nil]
    omega

lemma statedSize_of_begins (hp : bs <+: cs) (h : 4 ≤ bs.length) :
    statedSize cs = statedSize bs := by
  obtain ⟨t, rfl⟩ := hp
  match bs, h with
  | _ :: _ :: _ :: _ :: _, _ => rfl

lemma parse_eq (h : 128 ≤ bs.length) : parse bs =
    if Bytes.slice bs 36 4 ≠ Bytes.ofText "acsp" then .error .missingSignature
    else if statedSize bs < 128 then .error (.sizeBelowHeader (statedSize bs))
    else if bs.length < statedSize bs then .error (.truncated (statedSize bs) bs.length)
    else .ok ⟨bs.take (statedSize bs)⟩ := by
  rw [parse, headerLength, if_neg (not_lt.2 h), magic_eq, declaredSize_eq (by omega)]

lemma parse_of_sound (h : Sound bs) : parse bs = .ok ⟨bs.take (statedSize bs)⟩ := by
  rw [parse_eq h.header, if_neg (not_not.2 h.signature), if_neg (not_lt.2 h.holds),
    if_neg (not_lt.2 h.whole)]

lemma parse_of_refused (h : Refused bs f) : parse bs = .error f := by
  cases h with
  | header h => exact if_pos h
  | signature h hm => rw [parse_eq h, if_pos hm]
  | holds h hm hs => rw [parse_eq h, if_neg (not_not.2 hm), if_pos hs]
  | whole h hm hs hl =>
    rw [parse_eq h, if_neg (not_not.2 hm), if_neg (not_lt.2 hs), if_pos hl]

lemma sound_or_refused (bs : Bytes) : Sound bs ∨ ∃ f, Refused bs f := by
  by_cases h : 128 ≤ bs.length
  swap
  · exact .inr ⟨_, .header (not_le.1 h)⟩
  by_cases hm : Bytes.slice bs 36 4 = Bytes.ofText "acsp"
  swap
  · exact .inr ⟨_, .signature h hm⟩
  by_cases hs : 128 ≤ statedSize bs
  swap
  · exact .inr ⟨_, .holds h hm (not_le.1 hs)⟩
  by_cases hl : statedSize bs ≤ bs.length
  · exact .inl ⟨h, hm, hs, hl⟩
  · exact .inr ⟨_, .whole h hm hs (not_le.1 hl)⟩

lemma parse_eq_ok : parse bs = .ok p ↔ Sound bs ∧ p.bytes = bs.take (statedSize bs) := by
  constructor
  · intro h
    rcases sound_or_refused bs with hs | ⟨f, hf⟩
    · rw [parse_of_sound hs] at h
      cases h
      exact ⟨hs, rfl⟩
    · rw [parse_of_refused hf] at h
      cases h
  · rintro ⟨hs, hp⟩
    rw [parse_of_sound hs, ← hp]

lemma bytes_of_parse (h : parse bs = .ok p) : p.bytes = bs.take (declaredSize bs) := by
  obtain ⟨hs, hp⟩ := parse_eq_ok.1 h
  rw [declaredSize_eq (Nat.le_trans (by decide) hs.header), hp]

lemma parse_eq_error : parse bs = .error f ↔ Refused bs f := by
  refine ⟨fun h => ?_, parse_of_refused⟩
  rcases sound_or_refused bs with hs | ⟨g, hg⟩
  · rw [parse_of_sound hs] at h
    cases h
  · rw [parse_of_refused hg] at h
    cases h
    exact hg

lemma length_of_parse (h : parse bs = .ok p) : p.bytes.length = statedSize bs := by
  obtain ⟨hs, hp⟩ := parse_eq_ok.1 h
  rw [hp, List.length_take, min_eq_left hs.whole]

lemma headerLength_le_of_parse (h : parse bs = .ok p) : 128 ≤ p.bytes.length :=
  length_of_parse h ▸ (parse_eq_ok.1 h).1.holds

lemma parse_of_begins (h : parse bs = .ok p) (hc : p.bytes <+: cs) : parse cs = .ok p := by
  have hl := headerLength_le_of_parse h
  have hn := length_of_parse h
  obtain ⟨hs, hp⟩ := parse_eq_ok.1 h
  have hb : p.bytes <+: bs := hp ▸ List.take_prefix _ _
  have hsize : statedSize cs = statedSize bs := by
    rw [statedSize_of_begins hc (by omega), statedSize_of_begins hb (by omega)]
  refine parse_eq_ok.2 ⟨⟨hl.trans hc.length_le, ?_, ?_, ?_⟩, ?_⟩
  · rw [Bytes.slice_of_begins hc (by omega), ← Bytes.slice_of_begins hb (by omega), hs.signature]
  · rw [hsize]
    exact hs.holds
  · rw [hsize, ← hn]
    exact hc.length_le
  · rw [hsize, ← hn]
    exact List.prefix_iff_eq_take.1 hc

lemma parse?_eq (bs : Bytes) : parse? bs = some (parse bs) := by
  by_cases h : bs.length < headerLength
  · rw [parse?, parse, if_pos h, if_pos h]
  have hl : 128 ≤ bs.length := not_lt.1 h
  rw [parse?, parse, declaredSize, if_neg h, if_neg h, Bytes.slice?_of_le (by omega),
    Bytes.slice?_of_le (by omega), Bytes.slice_zero]
  simp only [Option.bind_eq_bind, Option.bind_some, Option.pure_def]
  by_cases hm : bs.slice 36 4 ≠ magic
  · rw [if_pos hm, if_pos hm]
  rw [if_neg hm, if_neg hm]
  by_cases hs : Bytes.number (bs.take 4) < headerLength
  · rw [if_pos hs, if_pos hs]
  rw [if_neg hs, if_neg hs]
  by_cases hw : bs.length < Bytes.number (bs.take 4)
  · rw [if_pos hw, if_pos hw]
  rw [if_neg hw, if_neg hw, Bytes.slice?_of_le (by omega)]
  rfl

lemma version?_eq (h : 128 ≤ p.bytes.length) : p.version? = some p.version := by
  have h8 : p.bytes[8]? = some (p.bytes.getD 8 0) := by
    rw [List.getD_eq_getElem _ _ (by omega), List.getElem?_eq_getElem]
  have h9 : p.bytes[9]? = some (p.bytes.getD 9 0) := by
    rw [List.getD_eq_getElem _ _ (by omega), List.getElem?_eq_getElem]
  rw [version?, h8, h9]
  rfl

end Profile

namespace Host

def blank : Bytes := [0, 0, 0, 128] ++ List.replicate 32 0 ++ Profile.magic ++ List.replicate 88 0

lemma content_loadProfile (id : Nat) (bs : Bytes) (flags : UInt32) :
    (loadProfile id bs flags).map (·.content) = codec ((Profile.parse bs).map .profile) := by
  rw [loadProfile]
  cases Profile.parse bs <;> rfl

lemma description_loadProfile (id : Nat) (bs : Bytes) (flags : UInt32) :
    (loadProfile id bs flags).map (·.envelope.names.description) =
      (scanProfile bs).map (some ·.summary) := by
  rw [loadProfile, scanProfile]
  cases Profile.parse bs <;> rfl

end Host

namespace Profile

/-- The format of profiles: which bytes are read as one, what is told of all others, and that
nothing but the bytes of the profile matters. -/
theorem parse_exact (bs : Bytes) :
    ((∃ p, parse bs = .ok p) ↔ Sound bs) ∧
      (∀ f, parse bs = .error f ↔ Refused bs f) ∧
      parse? bs = some (parse bs) ∧
      (∀ p, parse bs = .ok p →
        p.bytes = bs.take (statedSize bs) ∧ p.size = statedSize bs ∧
        (p.version? = some p.version ∧ p.deviceClass? = some p.deviceClass ∧
          p.colourSpace? = some p.colourSpace ∧
          p.connectionSpace? = some p.connectionSpace) ∧
        parse p.bytes = .ok p ∧ ∀ t, parse (bs ++ t) = .ok p) ∧
      ∀ id flags,
        (Host.loadProfile id bs flags).map (·.content) = Host.codec ((parse bs).map .profile) ∧
        (Host.loadProfile id bs flags).map (·.envelope.names.description) =
          (Host.scanProfile bs).map (some ·.summary) := by
  refine ⟨⟨?_, fun h => ⟨_, parse_of_sound h⟩⟩, fun f => parse_eq_error, parse?_eq bs,
    fun p h => ?_, fun id flags =>
      ⟨Host.content_loadProfile id bs flags, Host.description_loadProfile id bs flags⟩⟩
  · rintro ⟨p, hp⟩
    exact (parse_eq_ok.1 hp).1
  have hl := headerLength_le_of_parse h
  have hp := (parse_eq_ok.1 h).2
  refine ⟨hp, length_of_parse h, ⟨version?_eq hl, ?_, ?_, ?_⟩, ?_, fun t => ?_⟩
  · exact Bytes.word?_of_le (by omega)
  · exact Bytes.word?_of_le (by omega)
  · exact Bytes.word?_of_le (by omega)
  · exact parse_of_begins h (List.prefix_refl _)
  · exact parse_of_begins h (hp ▸ (List.take_prefix _ _).trans (List.prefix_append _ _))

theorem parse_exact_blank :
    parse (Host.blank ++ [255, 255]) = .ok ⟨Host.blank⟩ ∧
      Refused (Host.blank.take 127) (.truncated 128 127) ∧
      Refused ([0, 0, 0, 129] ++ Host.blank.drop 4) (.truncated 129 128) := by
  have h : parse Host.blank = .ok ⟨Host.blank⟩ := by decide +kernel
  refine ⟨((parse_exact Host.blank).2.2.2.1 _ h).2.2.2.2 _, ?_, ?_⟩
  · exact ((parse_exact _).2.1 _).1 (by decide +kernel)
  · exact ((parse_exact _).2.1 _).1 (by decide +kernel)

end Profile

end ColourPipeline
