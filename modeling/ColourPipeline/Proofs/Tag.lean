import ColourPipeline.Tag
import Mathlib

namespace ColourPipeline

namespace Bytes

lemma length_ofWord (n : UInt32) : (ofWord n).length = 4 := length_ofNat 4 n.toNat

lemma word_ofWord (n : UInt32) (bs : Bytes) : word (ofWord n ++ bs) 0 = n := by
  have hs : slice (ofWord n ++ bs) 0 4 = ofWord n := by simp [slice, length_ofWord]
  have hn : number (ofWord n) = n.toNat := number_ofNat 4 _ n.toNat_lt
  rw [word, hs, hn, UInt32.ofNat_toNat]

lemma toNat_ofNat {n : ℕ} (h : n < 128) : (UInt8.ofNat n).toNat = n := by
  simp
  omega

lemma toNat_char {b : UInt8} (h : b.toNat < 128) : (Char.ofNat b.toNat).toNat = b.toNat := by
  rw [Char.toNat_ofNat, if_pos (.inl (by omega))]

lemma isAscii_iff {b : UInt8} : isAscii b = true ↔ b.toNat < 128 := by
  simp [isAscii, UInt8.lt_iff_toNat_lt]

end Bytes

namespace Tag

variable {type sig : UInt32} {records : List TagRecord} {bs payload : Bytes} {s : String}
  {t : TagBlock}

def code (letters : String) : UInt32 := Bytes.word (Bytes.ofText letters) 0

lemma code_text : code "text" = textType := by decide +kernel

lemma code_signature : code "sig " = signatureType := by decide +kernel

def IsPlain (s : String) : Prop := ∀ c ∈ s.toList, c.toNat ≠ 0 ∧ c.toNat < 128

def plainBytes (s : String) : Bytes := s.toList.map fun c => UInt8.ofNat c.toNat

inductive Writable : UInt32 → List TagRecord → Prop
  | text {s : String} (h : IsPlain s) : Writable (code "text") [.text s]
  | signature (n : UInt32) : Writable (code "sig ") [.signature n]

section Texts

lemma of_mem_plainBytes (h : IsPlain s) {b : UInt8} (hb : b ∈ plainBytes s) :
    b ≠ 0 ∧ b.toNat < 128 := by
  obtain ⟨c, hc, rfl⟩ := List.mem_map.1 hb
  obtain ⟨h0, hlt⟩ := h c hc
  rw [Ne, ← UInt8.toNat_inj, Bytes.toNat_ofNat hlt]
  exact ⟨h0, hlt⟩

lemma latin_plainBytes (h : IsPlain s) : Bytes.latin (plainBytes s) = s := by
  have hc : ∀ c ∈ s.toList, Char.ofNat (UInt8.ofNat c.toNat).toNat = c := by
    intro c hc
    rw [Bytes.toNat_ofNat (h c hc).2, Char.ofNat_toNat]
  rw [Bytes.latin, plainBytes, List.map_map]
  have hm := List.map_congr_left (f := (fun b : UInt8 => Char.ofNat b.toNat) ∘
    fun c : Char => UInt8.ofNat c.toNat) (g := id) hc
  rw [hm, List.map_id, String.ofList_toList]

lemma encodeText_eq_some : encodeText s = some bs ↔ IsPlain s ∧ bs = plainBytes s ++ [0] := by
  have hp : (s.toList.all fun c => c.toNat ≠ 0 ∧ c.toNat < 128) = true ↔ IsPlain s := by
    simp [IsPlain]
  rw [encodeText]
  split
  · rename_i h
    simp [hp.1 h, plainBytes, eq_comm]
  · rename_i h
    simp [mt hp.2 h]

lemma decodeText_plainBytes (h : IsPlain s) (rest : Bytes) :
    decodeText (plainBytes s ++ 0 :: rest) = .ok s := by
  have ht : (plainBytes s ++ 0 :: rest).takeWhile (· ≠ 0) = plainBytes s := by
    rw [List.takeWhile_append_of_pos fun b hb => by simpa using (of_mem_plainBytes h hb).1]
    simp
  have ha : (plainBytes s).all Bytes.isAscii = true :=
    List.all_eq_true.2 fun b hb => Bytes.isAscii_iff.2 (of_mem_plainBytes h hb).2
  simp only [decodeText]
  rw [ht, if_pos ha, latin_plainBytes h]

lemma isPlain_of_decodeText (h : decodeText payload = .ok s) : IsPlain s := by
  simp only [decodeText] at h
  split at h
  · rename_i hall
    obtain rfl := Except.ok.inj h
    intro c hc
    rw [Bytes.latin, String.toList_ofList] at hc
    obtain ⟨b, hb, rfl⟩ := List.mem_map.1 hc
    have hlt := Bytes.isAscii_iff.1 (List.all_eq_true.1 hall b hb)
    have h0 : b ≠ 0 := by simpa using List.mem_takeWhile_imp hb
    rw [Bytes.toNat_char hlt]
    exact ⟨fun hz => h0 (UInt8.toNat_inj.1 hz), hlt⟩
  · cases h

end Texts

section Blocks

lemma type?_eq_some : t.type? = some type ↔ 4 ≤ t.data.length ∧ Bytes.word t.data 0 = type := by
  simp [TagBlock.type?]

lemma isSupported_iff : isSupported type = true ↔ type = textType ∨ type = signatureType := by
  simp [isSupported]

lemma canHandle_eq_zero {q : CodecQuery} (h : q = .tagRead ∨ q = .tagWrite) :
    canHandle q type = 0 ↔ isSupported type = false := by
  rcases h with rfl | rfl <;> simp [canHandle]

lemma payload?_eq_some : payload? type records = some payload ↔
    (∃ s, IsPlain s ∧ type = textType ∧ records = [.text s] ∧ payload = plainBytes s ++ [0]) ∨
      ∃ n, type = signatureType ∧ records = [.signature n] ∧ payload = Bytes.ofWord n := by
  unfold payload?
  split
  · rename_i s
    by_cases h : type = textType
    · simp [h, encodeText_eq_some]
    · simp [h]
  · rename_i n
    by_cases h : type = signatureType
    · simp [h, eq_comm]
    · simp [h]
  · rename_i ht hs
    simp only [reduceCtorEq, false_iff, not_or, not_exists, not_and]
    exact ⟨fun s _ _ hr => absurd hr (ht s), fun n _ hr => absurd hr (hs n)⟩

lemma writable_iff : Writable type records ↔ ∃ payload, payload? type records = some payload := by
  simp only [payload?_eq_some]
  constructor
  · rintro (⟨h⟩ | ⟨n⟩)
    · exact ⟨_, .inl ⟨_, h, code_text, rfl, rfl⟩⟩
    · exact ⟨_, .inr ⟨n, code_signature, rfl, rfl⟩⟩
  · rintro ⟨_, ⟨s, h, rfl, rfl, rfl⟩ | ⟨n, rfl, rfl, rfl⟩⟩
    · exact code_text ▸ .text h
    · exact code_signature ▸ .signature n

lemma isSupported_of_payload? (h : payload? type records = some payload) :
    isSupported type = true := by
  rw [isSupported_iff]
  rcases payload?_eq_some.1 h with ⟨-, -, ht, -⟩ | ⟨-, ht, -⟩
  · exact .inl ht
  · exact .inr ht

def block (type : UInt32) (payload : Bytes) : Bytes := Bytes.ofWord type ++ [0, 0, 0, 0] ++ payload

lemma encode_eq_ok : encode type records = .ok bs ↔
    ∃ payload, payload? type records = some payload ∧ bs = block type payload := by
  rw [encode]
  cases hp : payload? type records with
  | none => split <;> simp
  | some payload =>
    simp [isSupported_of_payload? hp, block, eq_comm]

lemma encode_eq_unsupported {n : UInt32} :
    encode type records = .error (.unsupportedTagType n) ↔ isSupported type = false ∧ type = n := by
  rw [encode]
  cases hs : isSupported type with
  | false => simp
  | true => cases payload? type records <;> simp

def read (type : UInt32) (payload : Bytes) : Except CodecFault (List TagRecord) :=
  if type = textType then (decodeText payload).map fun s => [.text s]
  else if type = signatureType then
    if payload.length < 4 then .error (.truncated 12 (payload.length + 8))
    else .ok [.signature (Bytes.word payload 0)]
  else .error (.unsupportedTagType type)

lemma decode_of_lt (h : t.data.length < 8) : decode t = .error (.truncated 8 t.data.length) :=
  if_pos h

lemma decode_of_le (h : 8 ≤ t.data.length) :
    decode t = read (Bytes.word t.data 0) (t.data.drop 8) := by
  have hl : (t.data.drop 8).length + 8 = t.data.length := by
    rw [List.length_drop]
    omega
  rw [read, hl]
  exact if_neg (not_lt.2 h)

lemma decode_block (sig type : UInt32) (payload : Bytes) :
    decode ⟨sig, block type payload⟩ = read type payload := by
  have hl : (Bytes.ofWord type ++ [0, 0, 0, 0]).length = 8 := by simp [Bytes.length_ofWord]
  have hd : (block type payload).drop 8 = payload := by rw [block, ← hl, List.drop_left]
  have hw : Bytes.word (block type payload) 0 = type := by
    rw [block, List.append_assoc, Bytes.word_ofWord]
  rw [decode_of_le, hw, hd]
  rw [block, List.length_append, hl]
  omega

lemma read_of_payload? (h : payload? type records = some payload) :
    read type payload = .ok records := by
  rw [read]
  rcases payload?_eq_some.1 h with ⟨s, hs, rfl, rfl, rfl⟩ | ⟨n, rfl, rfl, rfl⟩
  · rw [if_pos rfl, decodeText_plainBytes hs []]
    rfl
  · have hw := Bytes.word_ofWord n []
    rw [List.append_nil] at hw
    rw [if_neg (by decide), if_pos rfl, Bytes.length_ofWord, if_neg (by decide), hw]

lemma exists_payload?_of_read (h : read type payload = .ok records) :
    ∃ written, payload? type records = some written := by
  simp only [payload?_eq_some]
  rw [read] at h
  split at h
  · rename_i ht
    cases hs : decodeText payload with
    | error f =>
      rw [hs] at h
      cases h
    | ok s =>
      rw [hs] at h
      cases h
      exact ⟨_, .inl ⟨s, isPlain_of_decodeText hs, ht, rfl, rfl⟩⟩
  · split at h
    · rename_i ht
      split at h
      · cases h
      · cases h
        exact ⟨_, .inr ⟨_, ht, rfl, rfl⟩⟩
    · cases h

lemma read_of_not_supported (h : isSupported type = false) :
    read type payload = .error (.unsupportedTagType type) := by
  rw [← Bool.not_eq_true, isSupported_iff, not_or] at h
  rw [read, if_neg h.1, if_neg h.2]

lemma eq_notAscii_of_decodeText {f : CodecFault} (h : decodeText payload = .error f) :
    f = .notAscii := by
  simp only [decodeText] at h
  split at h <;> cases h
  rfl

lemma read_ne_unsupported (h : isSupported type = true) (n : UInt32) :
    read type payload ≠ .error (.unsupportedTagType n) := by
  rcases isSupported_iff.1 h with rfl | rfl
  · rw [read, if_pos rfl]
    cases hd : decodeText payload with
    | ok s => simp [Except.map]
    | error f => simp [Except.map, eq_notAscii_of_decodeText hd]
  · rw [read, if_neg (by decide), if_pos rfl]
    split <;> simp

lemma decode_eq_unsupported {n : UInt32} : decode t = .error (.unsupportedTagType n) ↔
    8 ≤ t.data.length ∧ Bytes.word t.data 0 = n ∧ isSupported n = false := by
  rcases lt_or_ge t.data.length 8 with hl | hl
  · simp [decode_of_lt hl, not_le.2 hl]
  rw [decode_of_le hl, and_iff_right hl]
  cases hs : isSupported (Bytes.word t.data 0) with
  | true =>
    refine iff_of_false (read_ne_unsupported hs n) ?_
    rintro ⟨rfl, hn⟩
    rw [hs] at hn
    cases hn
  | false =>
    rw [read_of_not_supported hs]
    constructor
    · intro h
      cases h
      exact ⟨rfl, hs⟩
    · rintro ⟨rfl, -⟩
      rfl

end Blocks

/-- Whatever can be written is read again, whatever was read can be written and read again, and
only types that cannot be handled are refused as such. -/
theorem reads_written :
    (∀ type records, (∃ bs, encode type records = .ok bs) ↔ Writable type records) ∧
    (∀ type records bs, encode type records = .ok bs →
      ∀ sig, decode ⟨sig, bs⟩ = .ok records) ∧
    (∀ t records, decode t = .ok records → ∃ type bs, t.type? = some type ∧
      encode type records = .ok bs ∧ ∀ sig, decode ⟨sig, bs⟩ = .ok records) ∧
    (∀ t n, decode t = .error (.unsupportedTagType n) ↔
      8 ≤ t.data.length ∧ t.type? = some n ∧ canHandle .tagRead n = 0) ∧
    ∀ type records n, encode type records = .error (.unsupportedTagType n) ↔
      type = n ∧ canHandle .tagWrite n = 0 := by
  have hread {type : UInt32} {records : List TagRecord} {bs : Bytes}
      (h : encode type records = .ok bs) (sig : UInt32) : decode ⟨sig, bs⟩ = .ok records := by
    obtain ⟨payload, hp, rfl⟩ := encode_eq_ok.1 h
    exact (decode_block sig type payload).trans (read_of_payload? hp)
  refine ⟨fun type records => ?_, fun type records bs h => hread h, fun t records h => ?_,
    fun t n => ?_, fun type records n => ?_⟩
  · rw [writable_iff]
    constructor
    · rintro ⟨bs, h⟩
      obtain ⟨payload, hp, -⟩ := encode_eq_ok.1 h
      exact ⟨payload, hp⟩
    · rintro ⟨payload, hp⟩
      exact ⟨_, encode_eq_ok.2 ⟨payload, hp, rfl⟩⟩
  · have hl : 8 ≤ t.data.length := by
      by_contra hl
      rw [decode_of_lt (not_le.1 hl)] at h
      cases h
    rw [decode_of_le hl] at h
    obtain ⟨payload, hp⟩ := exists_payload?_of_read h
    have he := encode_eq_ok.2 ⟨payload, hp, rfl⟩
    exact ⟨_, _, type?_eq_some.2 ⟨by omega, rfl⟩, he, hread he⟩
  · rw [decode_eq_unsupported, type?_eq_some, canHandle_eq_zero (.inl rfl)]
    constructor
    · rintro ⟨hl, hn, hs⟩
      exact ⟨hl, ⟨by omega, hn⟩, hs⟩
    · rintro ⟨hl, ⟨-, hn⟩, hs⟩
      exact ⟨hl, hn, hs⟩
  · rw [encode_eq_unsupported, canHandle_eq_zero (.inr rfl)]
    constructor
    · rintro ⟨hs, rfl⟩
      exact ⟨rfl, hs⟩
    · rintro ⟨rfl, hs⟩
      exact ⟨hs, rfl⟩

theorem reads_written_padded :
    let t : TagBlock :=
      ⟨7, Bytes.ofText "text" ++ [1, 2, 3, 4] ++ Bytes.ofText "sRGB" ++ [0, 200]⟩
    decode t = .ok [.text "sRGB"] ∧ ∃ type bs, t.type? = some type ∧
      encode type [.text "sRGB"] = .ok bs ∧ bs ≠ t.data ∧ decode ⟨8, bs⟩ = .ok [.text "sRGB"] := by
  have ht : decode ⟨7, Bytes.ofText "text" ++ [1, 2, 3, 4] ++ Bytes.ofText "sRGB" ++ [0, 200]⟩ =
      .ok [.text "sRGB"] := by decide +kernel
  have he : encode (code "text") [.text "sRGB"] =
      .ok (Bytes.ofText "text" ++ [0, 0, 0, 0] ++ Bytes.ofText "sRGB" ++ [0]) := by decide +kernel
  obtain ⟨-, hwritten, hread, -⟩ := reads_written
  obtain ⟨type, bs, htype, hbs, -⟩ := hread _ _ ht
  obtain rfl : code "text" = type := by
    have hcode : TagBlock.type? ⟨7, Bytes.ofText "text" ++ [1, 2, 3, 4] ++ Bytes.ofText "sRGB" ++
      [0, 200]⟩ = some (code "text") := by decide +kernel
    exact Option.some.inj (hcode.symm.trans htype)
  obtain rfl := Except.ok.inj (he.symm.trans hbs)
  exact ⟨ht, _, _, htype, he, by decide +kernel, hwritten _ _ _ he 8⟩

end Tag

end ColourPipeline
